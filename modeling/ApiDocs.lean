import ApiDocs.Main
import ApiDocs.Proofs.Catalog.MergeAt
import ApiDocs.Proofs.Catalog.Connect
import ApiDocs.Proofs.Catalog.Visibility
import ApiDocs.Proofs.Source.Load
import ApiDocs.Proofs.Source.MemberKey
import ApiDocs.Proofs.Source.Record
import ApiDocs.Storage.Tree
import ApiDocs.Proofs.Token.Cursor
import ApiDocs.Proofs.Token.Munch
import ApiDocs.Proofs.Catalog.OuterJoin
import ApiDocs.Proofs.Source.Obtained
import ApiDocs.Proofs.Source.Hidden
import ApiDocs.Proofs.Identifier.Alpha
import ApiDocs.Proofs.Source.Overload
import ApiDocs.Proofs.Source.Isolation
import ApiDocs.Proofs.Grammar.Leftmost
import ApiDocs.Proofs.Source.Survivors
import ApiDocs.Proofs.Source.Order
import ApiDocs.Proofs.Identifier.Display
import ApiDocs.Proofs.Identifier.Keys
import ApiDocs.Proofs.Entity.Described
import ApiDocs.Proofs.Catalog.Listing
import ApiDocs.Proofs.CommandLine.Run
import ApiDocs.Proofs.Identifier.Fixed
import ApiDocs.Proofs.Grammar.MemberId
import ApiDocs.Proofs.Identifier.Hiding
import ApiDocs.Proofs.Grammar.MethodText
import ApiDocs.Proofs.Source.Reference
import ApiDocs.Proofs.Source.TypeKey
import ApiDocs.Proofs.Identifier.Enclosing
import ApiDocs.Proofs.Catalog.Tally
import ApiDocs.Proofs.Catalog.UnionLaws
import ApiDocs.Proofs.Settings.Overlay
import ApiDocs.Proofs.Source.Skipping
import ApiDocs.Proofs.Record.Prose
