import Quadpod.AcceptRanking
import Quadpod.AcceptedPatches
import Quadpod.AcceptedPuts
import Quadpod.AccessIntegrity
import Quadpod.AccessToken
import Quadpod.AclWarnings
import Quadpod.AddressRanges
import Quadpod.AdvertisedUrls
import Quadpod.AtomicProgram
import Quadpod.AtomicProgramAgreement
import Quadpod.AtomicProgramConcealment
import Quadpod.AtomicProgramCost
import Quadpod.AtomicProgramFailures
import Quadpod.AtomicProgramInterleaving
import Quadpod.AtomicProgramRefusals
import Quadpod.AtomicProgramResults
import Quadpod.AtomicProgramSections
import Quadpod.AuthCaches
import Quadpod.AuthSoundness
import Quadpod.Authentication
import Quadpod.AuxiliaryCap
import Quadpod.AuxiliaryRaces
import Quadpod.AuxiliaryReports
import Quadpod.BlankRenaming
import Quadpod.BlobFailures
import Quadpod.BlobKeys
import Quadpod.BlobRaces
import Quadpod.BlobRoundTrip
import Quadpod.BoundedCaches
import Quadpod.CallBudget
import Quadpod.CallsByValue
import Quadpod.ChangeEvents
import Quadpod.ChildUrls
import Quadpod.ConcealedFailures
import Quadpod.ConditionalRaces
import Quadpod.Container
import Quadpod.ContainerBodies
import Quadpod.ContainerLinks
import Quadpod.Containment
import Quadpod.ContainmentCoherence
import Quadpod.ContainmentTree
import Quadpod.Credentials
import Quadpod.Dataset
import Quadpod.DatasetReads
import Quadpod.DatasetStore
import Quadpod.DatasetVersions
import Quadpod.DeclaredAccess
import Quadpod.DeniedWalks
import Quadpod.DerivedUrls
import Quadpod.DpopProof
import Quadpod.DpopReplay
import Quadpod.EarlyReturns
import Quadpod.EntityTags
import Quadpod.ExactWrites
import Quadpod.FetchRebinding
import Quadpod.FieldSyntax
import Quadpod.FirstOccurrence
import Quadpod.Footprints
import Quadpod.GrantedChanges
import Quadpod.GraphNames
import Quadpod.GraphStore
import Quadpod.GuardWalk
import Quadpod.HttpRead
import Quadpod.HttpReply
import Quadpod.HttpServer
import Quadpod.HttpWrite
import Quadpod.HtuPaths
import Quadpod.IdleOperations
import Quadpod.InsecureHosts
import Quadpod.IpAddress
import Quadpod.KeyedTable
import Quadpod.LinkParameters
import Quadpod.LinkSyntax
import Quadpod.MediaTypeVersions
import Quadpod.MintedTokens
import Quadpod.NearestAcl
import Quadpod.NegotiatedFormats
import Quadpod.NotificationBus
import Quadpod.OpKeys
import Quadpod.Patch
import Quadpod.PatchDocuments
import Quadpod.PatchNumbering
import Quadpod.PatchRaces
import Quadpod.PatchSemantics
import Quadpod.PatchSubstitution
import Quadpod.PatchesByValue
import Quadpod.PathClassification
import Quadpod.PatternMappings
import Quadpod.PercentEncoding
import Quadpod.PodInvariants
import Quadpod.PodRuns
import Quadpod.PostedChildren
import Quadpod.RdfFormat
import Quadpod.RdfNegotiation
import Quadpod.RdfTerm
import Quadpod.ReadLocality
import Quadpod.ReadModifyWrite
import Quadpod.ReadPrograms
import Quadpod.ReferenceCredentials
import Quadpod.ReferencePod
import Quadpod.ReferenceSyntax
import Quadpod.RefusedRequests
import Quadpod.ReportedChanges
import Quadpod.ReportedWrites
import Quadpod.RequestWrites
import Quadpod.ReservedCheck
import Quadpod.ReservedNames
import Quadpod.ReservedPatches
import Quadpod.ReservedTerms
import Quadpod.ResolvedPaths
import Quadpod.Resource
import Quadpod.ResourceRaces
import Quadpod.SafeFetch
import Quadpod.SaturatingInteger
import Quadpod.ServedRepresentations
import Quadpod.ServerCalls
import Quadpod.ServerRuns
import Quadpod.ShapeEnforcement
import Quadpod.Shapes
import Quadpod.SkolemBijection
import Quadpod.SkolemRoundTrip
import Quadpod.SlashPairs
import Quadpod.Space
import Quadpod.SpacePath
import Quadpod.StorageIntegrity
import Quadpod.StorageWrites
import Quadpod.StoredAcls
import Quadpod.StoredLiterals
import Quadpod.Stores
import Quadpod.StrongValidators
import Quadpod.Text
import Quadpod.TextPieces
import Quadpod.TidyWorlds
import Quadpod.Traversal
import Quadpod.UnansweredRanges
import Quadpod.UntracedRefusals
import Quadpod.UrlNormalization
import Quadpod.ValidationView
import Quadpod.VersionParameters
import Quadpod.VersionProjection
import Quadpod.WacAllow
import Quadpod.WacDecision
import Quadpod.WacGuard
import Quadpod.WholeAuxiliaries
import Quadpod.WritePreconditions
