import DocSite.Main
import DocSite.Proofs.Catalog.Session
import DocSite.Proofs.Discovery.Listing
import DocSite.Proofs.Discovery.Collisions
import DocSite.Proofs.FileSystem.Way
import DocSite.Proofs.Nav.Attachment
import DocSite.Proofs.Nav.Contents
import DocSite.Proofs.Nav.Coverage
import DocSite.Proofs.Nav.Independence
import DocSite.Proofs.Nav.Shape
import DocSite.Proofs.Nav.Tree
import DocSite.Proofs.Settings.Directories
import DocSite.Proofs.SourceFile.Links
import DocSite.Url.Resolver
import DocSite.Proofs.Discovery.Visits
import DocSite.Proofs.Discovery.Pruning
import DocSite.Proofs.Path.Spelling
import DocSite.Proofs.FileSystem.Detours
import DocSite.Proofs.Discovery.Sources
import DocSite.Proofs.FileSystem.LinkFree
import DocSite.Proofs.FileSystem.Changes
import DocSite.Proofs.Path.Around
import DocSite.Proofs.Publishing.Layout
import DocSite.Proofs.Publishing.Run
import DocSite.Proofs.Publishing.Effect
import DocSite.Proofs.Publishing.Again
import DocSite.Proofs.Publishing.Published
import DocSite.Proofs.Publishing.Incremental
import DocSite.Proofs.Nav.Activity
import DocSite.Proofs.Url.Reaching
import DocSite.Proofs.Nav.Neighbours
import DocSite.Proofs.Nav.PageLinks
import DocSite.Proofs.Theme.Filter
import DocSite.Proofs.Theme.Additions
import DocSite.Proofs.Theme.Places
import DocSite.Proofs.Nav.Bystanders
import DocSite.Proofs.Discovery.IndexFiles
import DocSite.Proofs.Nav.Homepage
import DocSite.Proofs.Warnings
import DocSite.Proofs.Discovery.Warnings
import DocSite.Proofs.Nav.Warnings
import DocSite.Proofs.CommandLine.Strict
import DocSite.Proofs.Settings.Loading
import DocSite.Proofs.Settings.References
import DocSite.Proofs.Discovery.Aliases
import DocSite.Proofs.Discovery.Filtering
import DocSite.Proofs.Discovery.Stack
import DocSite.Proofs.Theme.Candidates
import DocSite.Proofs.Theme.Templates
import DocSite.Proofs.Nav.Marking
import DocSite.Proofs.SourceFile.Serving
import DocSite.Proofs.Url.Remembering
import DocSite.Proofs.Url.Encoded
import DocSite.Proofs.SourceFile.Resolving
import DocSite.Proofs.Nav.Grouping
import DocSite.Proofs.Url.Shortest
import DocSite.Proofs.Nav.Views
import DocSite.Proofs.Json.Compact
import DocSite.Proofs.Path.Normalizing
import DocSite.Proofs.Discovery.Strays
import DocSite.Proofs.Publishing.OwnCopies
import DocSite.Proofs.Nav.Folders
