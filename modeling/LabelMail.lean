import LabelMail.Blacklist.Simulated
import LabelMail.Guard
import LabelMail.Main
import LabelMail.Proofs.BareHosts
import LabelMail.Proofs.Confidentiality
import LabelMail.Proofs.Convergence
import LabelMail.Proofs.CutReplies
import LabelMail.Proofs.DanglingLinks
import LabelMail.Proofs.FaithfulCopies
import LabelMail.Proofs.Flags
import LabelMail.Proofs.FolderSearch
import LabelMail.Proofs.GuardExclusion
import LabelMail.Proofs.HonestService
import LabelMail.Proofs.InboxApart
import LabelMail.Proofs.Isolation
import LabelMail.Proofs.LabelNames
import LabelMail.Proofs.LabelRenaming
import LabelMail.Proofs.LastingSpam
import LabelMail.Proofs.ListingByName
import LabelMail.Proofs.Lookups
import LabelMail.Proofs.MainFolder
import LabelMail.Proofs.Refinement
import LabelMail.Proofs.Refusals
import LabelMail.Proofs.Repair
import LabelMail.Proofs.Replica.Announcements
import LabelMail.Proofs.Replica.ReadPaths
import LabelMail.Proofs.ReplicaAside
import LabelMail.Proofs.Resumption
import LabelMail.Proofs.SharedLabels
import LabelMail.Proofs.SpamExclusion
import LabelMail.Proofs.SpamChanges
import LabelMail.Proofs.StableAddresses
import LabelMail.Proofs.StoredTags
import LabelMail.Proofs.TagRoundTrips
import LabelMail.Proofs.TagSteps
import LabelMail.Proofs.TrashSweep
import LabelMail.Proofs.UnnamedLabels
import LabelMail.Proofs.UnreadCounts
import LabelMail.Proofs.WrittenPaths
import LabelMail.Replica.Watching
import LabelMail.Web.Exchange
