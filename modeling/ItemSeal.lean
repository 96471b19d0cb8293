import ItemSeal.Arrangement
import ItemSeal.AttributeValue.Codec
import ItemSeal.ClientSettings
import ItemSeal.ItemEdit
import ItemSeal.KeyService.Wire
import ItemSeal.Store.Staged
import ItemSeal.Store.Wire
import ItemSeal.TableListing
import ItemSeal.Json.Integer
import ItemSeal.Service.Shape
import ItemSeal.Proofs.NameMapViews
import ItemSeal.Proofs.Codec.Reading
import ItemSeal.Proofs.Codec.RoundTrip
import ItemSeal.Proofs.Sealing.ActRuns
import ItemSeal.Proofs.Codec.Writability
import ItemSeal.Proofs.Codec.Canonical
import ItemSeal.Proofs.Codec.Rearranging
import ItemSeal.Proofs.Signing.Segments
import ItemSeal.Proofs.Signing.CoveredItems
import ItemSeal.Proofs.Json.StringMembers
import ItemSeal.Proofs.Schema.KeyExemption
import ItemSeal.Proofs.Sealing.Runs
import ItemSeal.Proofs.Sealing.RoundTrip
import ItemSeal.Proofs.Sealing.Unsigned
import ItemSeal.Proofs.Sealing.ActLoops
import ItemSeal.Proofs.Sealing.FixedKeys
import ItemSeal.Proofs.Sealing.ExemptKeys
import ItemSeal.Proofs.Sealing.Tampering
import ItemSeal.Proofs.Store.MirroredTables
import ItemSeal.Proofs.SealedStore.Configuration
import ItemSeal.Proofs.SealedStore.Views
import ItemSeal.Proofs.SealedStore.Batches
import ItemSeal.Proofs.SealedStore.SideBySide
import ItemSeal.Proofs.Base64Reading
import ItemSeal.Proofs.KeyService.DataKeys
import ItemSeal.Proofs.KeyService.Envelope
import ItemSeal.Proofs.Sealing.Directions
import ItemSeal.Proofs.Arranging
import ItemSeal.Proofs.Sealing.ActTurns
import ItemSeal.Proofs.SealedStore.Resolution
import ItemSeal.Proofs.SealedStore.RequestLog
import ItemSeal.Proofs.SealedStore.BatchWrites
import ItemSeal.Proofs.SealedStore.BatchReads
import ItemSeal.Proofs.Listing.MemoryPages
import ItemSeal.Proofs.Schema.CacheHistory
import ItemSeal.Proofs.SealedStore.GivenConfig
import ItemSeal.Proofs.Codec.KnownValues
import ItemSeal.Proofs.Sealing.Acceptance
import ItemSeal.Proofs.Listing.Transcripts
import ItemSeal.Proofs.Codec.Decoding
import ItemSeal.Proofs.TextOrder
import ItemSeal.Proofs.Codec.OwnForms
import ItemSeal.Proofs.Sealing.OpenEdits
import ItemSeal.Proofs.Sealing.Reordering
import ItemSeal.Proofs.Sealing.StoredShape
import ItemSeal.Proofs.Codec.PrefixFree
import ItemSeal.Proofs.Schema.ExemptPolicies
import ItemSeal.Proofs.SealedTable.OneRequest
import ItemSeal.Proofs.SealedTable.Refreshing
import ItemSeal.Proofs.Service.FailureKinds
import ItemSeal.AttributeValue.Scan
import ItemSeal.Proofs.Codec.Demands
import ItemSeal.Proofs.Codec.Scanning
import ItemSeal.Proofs.KeyService.ContextStrings
import ItemSeal.Proofs.Codec.DecodedSize
