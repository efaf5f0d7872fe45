import ApiDigest.CommandLine
import ApiDigest.Main
import ApiDigest.Proofs.DistinctKeys
import ApiDigest.Proofs.FreeNames
import ApiDigest.Proofs.NormalView
import ApiDigest.Proofs.Places
import ApiDigest.Proofs.Pointers
import ApiDigest.Proofs.UpgradedParts
import ApiDigest.Proofs.Walk
import ApiDigest.World.Session
import ApiDigest.Proofs.OperationIds
import ApiDigest.Proofs.References
import ApiDigest.Proofs.MergedParameters
import ApiDigest.Proofs.UpgradedParameters
import ApiDigest.Proofs.NormalBodies
import ApiDigest.Proofs.UpgradedBodies
import ApiDigest.Proofs.Agreement
import ApiDigest.Proofs.MediaTypes
import ApiDigest.Proofs.UpgradedResponses
import ApiDigest.Proofs.KeptBodies
import ApiDigest.Proofs.Stability
import ApiDigest.Proofs.Reordering
import ApiDigest.Proofs.Capture
import ApiDigest.Proofs.Parts
import ApiDigest.Proofs.Bundled
import ApiDigest.Proofs.UpgradedKeys
import ApiDigest.Proofs.MovedPointers
import ApiDigest.Proofs.Totality
import ApiDigest.Proofs.DeclaredOperations
import ApiDigest.Proofs.KeptOrder
import ApiDigest.Proofs.Origins
import ApiDigest.Proofs.ValueTypes
import ApiDigest.Proofs.Serialized
import ApiDigest.Proofs.NullWrappers
import ApiDigest.Proofs.NullableProperties
import ApiDigest.Proofs.VariantOrder
import ApiDigest.Proofs.ArrayFields
import ApiDigest.Proofs.TypeAgreement
import ApiDigest.Proofs.FormFields
import ApiDigest.Proofs.Addresses
import ApiDigest.Proofs.KeptNames
import ApiDigest.Proofs.EscapedNames
import ApiDigest.Proofs.PathSegments
import ApiDigest.Proofs.InferredNames
import ApiDigest.Proofs.SiblingPointers
import ApiDigest.Proofs.UnreadKeys
import ApiDigest.Proofs.SpelledRecords
import ApiDigest.Proofs.NameSearch
import ApiDigest.Proofs.YamlTrees
import ApiDigest.Proofs.Literals
import ApiDigest.Proofs.FilePaths
import ApiDigest.Proofs.OneLine
import ApiDigest.Proofs.SpelledTexts
import ApiDigest.Proofs.ReadBack
import ApiDigest.Proofs.WrittenDigests
import ApiDigest.Proofs.GeneratedFiles
