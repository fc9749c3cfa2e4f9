import OpenVC.Aio
import OpenVC.Cache
import OpenVC.Cbor
import OpenVC.CborWire
import OpenVC.Cose
import OpenVC.CredentialRequest
import OpenVC.Did.Base
import OpenVC.Did.DidWeb
import OpenVC.Did.DidWebvh
import OpenVC.Did.Proofs.DidDocumentProofs
import OpenVC.Did.Proofs.DidKeyCanonicalProofs
import OpenVC.Did.Proofs.DidKeyProofs
import OpenVC.Did.Proofs.DidWebProofs
import OpenVC.Did.Proofs.DidWebvhProofs
import OpenVC.Did.Proofs.DidWebvhTamperProofs
import OpenVC.Ebsi.AttributeFetches
import OpenVC.Ebsi.HttpBody
import OpenVC.Ebsi.NodeClient
import OpenVC.Ebsi.Nodes
import OpenVC.Ebsi.OpenPgp
import OpenVC.Ebsi.Proofs.AttributeWalkProofs
import OpenVC.Ebsi.Proofs.ContractAddressProofs
import OpenVC.Ebsi.Proofs.HttpBodyProofs
import OpenVC.Ebsi.Proofs.NodeClientProofs
import OpenVC.Ebsi.Proofs.NodeRequestsProofs
import OpenVC.Ebsi.Proofs.NodesProofs
import OpenVC.Ebsi.Proofs.NodesRunProofs
import OpenVC.Ebsi.Proofs.NodesTypedProofs
import OpenVC.Ebsi.Proofs.OpenPgpArmorProofs
import OpenVC.Ebsi.Proofs.OpenPgpFramingProofs
import OpenVC.Ebsi.Proofs.OpenPgpProofs
import OpenVC.Ebsi.Proofs.OpenPgpReadsProofs
import OpenVC.Ebsi.Proofs.OpenPgpSignedProofs
import OpenVC.Ebsi.Proofs.OriginProofs
import OpenVC.Ebsi.Proofs.TrustCompleteProofs
import OpenVC.Ebsi.Proofs.TrustProofs
import OpenVC.Ebsi.Proofs.VersioningProofs
import OpenVC.Ebsi.Trust
import OpenVC.Ebsi.Versioning
import OpenVC.Errors
import OpenVC.Fetch
import OpenVC.Jcs
import OpenVC.JsonInput
import OpenVC.JwkThumbprint
import OpenVC.JwtVcIssuer
import OpenVC.Keys
import OpenVC.Logic.Bitfield
import OpenVC.Logic.Chain
import OpenVC.Logic.Fifo
import OpenVC.Logic.Framing
import OpenVC.Logic.Layers
import OpenVC.Logic.Path
import OpenVC.Logic.Positional
import OpenVC.Logic.PrefixReader
import OpenVC.Logic.Ratchet
import OpenVC.Logic.Selection
import OpenVC.Logic.ShiftRegister
import OpenVC.Logic.Significand
import OpenVC.Logic.SingleUse
import OpenVC.Logic.Waiver
import OpenVC.Mdoc
import OpenVC.Multibase
import OpenVC.NQuads
import OpenVC.OpenId4Vp.Dcql
import OpenVC.OpenId4Vp.Presentation
import OpenVC.OpenId4Vp.Proofs.DcqlProofs
import OpenVC.OpenId4Vp.Proofs.ResponseProofs
import OpenVC.Pipeline
import OpenVC.Proof.ContextValidation
import OpenVC.Proof.DataIntegrity
import OpenVC.Proof.DiIssue
import OpenVC.Proof.EcdsaSd
import OpenVC.Proof.EcdsaSdIssue
import OpenVC.Proof.JsonLdDataset
import OpenVC.Proof.Proofs.CanonicalProofs
import OpenVC.Proof.Proofs.DepthBoundProofs
import OpenVC.Proof.Proofs.DeskolemizeProofs
import OpenVC.Proof.Proofs.DisclosureProofs
import OpenVC.Proof.Proofs.EcdsaSdRoundTripProofs
import OpenVC.Proof.Proofs.EcdsaSdSettingProofs
import OpenVC.Proof.Proofs.EcdsaSdTypedProofs
import OpenVC.Proof.Proofs.KeyBindingProofs
import OpenVC.Proof.Proofs.KeyBindingRoundTripProofs
import OpenVC.Proof.Proofs.LaneProofs
import OpenVC.Proof.Proofs.ProofValueProofs
import OpenVC.Proof.Proofs.RelabelProofs
import OpenVC.Proof.Proofs.SdJwtIssueProofs
import OpenVC.Proof.Proofs.SdJwtProofs
import OpenVC.Proof.Proofs.SdJwtRoundTripProofs
import OpenVC.Proof.Proofs.SelectJsonLdInPlaceProofs
import OpenVC.Proof.Proofs.SelectJsonLdProofs
import OpenVC.Proof.Proofs.SkolemGraphProofs
import OpenVC.Proof.Proofs.SkolemizeProofs
import OpenVC.Proof.Proofs.StatusInPlaceProofs
import OpenVC.Proof.Proofs.StatusWalkProofs
import OpenVC.Proof.Proofs.ValidateDocumentProofs
import OpenVC.Proof.Proofs.VcJwtProofs
import OpenVC.Proof.Proofs.VerifyCommonProofs
import OpenVC.Proof.Proofs.VpJwtProofs
import OpenVC.Proof.Proofs.WaiverProofs
import OpenVC.Proof.Relabel
import OpenVC.Proof.SdJwt
import OpenVC.Proof.SdJwtIssue
import OpenVC.Proof.SelectJsonLd
import OpenVC.Proof.Skolemize
import OpenVC.Proof.StatusInPlace
import OpenVC.Proof.TermIndex
import OpenVC.Proof.ValidateDocument
import OpenVC.Proof.VcJwt
import OpenVC.Proof.VerifyCommon
import OpenVC.Proof.VpJwt
import OpenVC.Proofs.AioProofs
import OpenVC.Proofs.Base58Proofs
import OpenVC.Proofs.BatchDedupProofs
import OpenVC.Proofs.CacheProofs
import OpenVC.Proofs.CborPositionsProofs
import OpenVC.Proofs.CborProofs
import OpenVC.Proofs.CborWireProofs
import OpenVC.Proofs.CoseTypedProofs
import OpenVC.Proofs.CredentialRequestProofs
import OpenVC.Proofs.DataIntegrityProofs
import OpenVC.Proofs.DiAuthenticProofs
import OpenVC.Proofs.DiIssueProofs
import OpenVC.Proofs.DidTypedProofs
import OpenVC.Proofs.DistinctKeysProofs
import OpenVC.Proofs.ErrorsProofs
import OpenVC.Proofs.FetchProofs
import OpenVC.Proofs.IntegrityProofs
import OpenVC.Proofs.IssuerBindingProofs
import OpenVC.Proofs.JcsNumberProofs
import OpenVC.Proofs.JcsOrderProofs
import OpenVC.Proofs.JcsProofs
import OpenVC.Proofs.JcsReadProofs
import OpenVC.Proofs.JsonInputProofs
import OpenVC.Proofs.KeysProofs
import OpenVC.Proofs.MdocDisclosureProofs
import OpenVC.Proofs.MdocProofs
import OpenVC.Proofs.MdocTypedProofs
import OpenVC.Proofs.MultibaseProofs
import OpenVC.Proofs.NQuadsProofs
import OpenVC.Proofs.RpRegistrationProofs
import OpenVC.Proofs.SignedStructureProofs
import OpenVC.Proofs.StatusBindingProofs
import OpenVC.Proofs.TypeMetadataProofs
import OpenVC.Proofs.VerifyManyProofs
import OpenVC.Proofs.VerifyProofs
import OpenVC.Python.Calendar
import OpenVC.Python.Calling
import OpenVC.Python.Codec
import OpenVC.Python.Coroutine
import OpenVC.Python.Decimal
import OpenVC.Python.Except
import OpenVC.Python.Hashlib
import OpenVC.Python.Interleaving
import OpenVC.Python.Interpreter
import OpenVC.Python.Json
import OpenVC.Python.JsonDumps
import OpenVC.Python.JsonLoads
import OpenVC.Python.JsonSame
import OpenVC.Python.JsonText
import OpenVC.Python.Numeral
import OpenVC.Python.Owned
import OpenVC.Python.Proofs.CodecProofs
import OpenVC.Python.Proofs.FloatOrderProofs
import OpenVC.Python.Proofs.FloatReprProofs
import OpenVC.Python.Proofs.JsonDumpsProofs
import OpenVC.Python.Proofs.JsonNumberProofs
import OpenVC.Python.Proofs.JsonTextProofs
import OpenVC.Python.Proofs.UrlProofs
import OpenVC.Python.Raises
import OpenVC.Python.SubDocument
import OpenVC.Python.Text
import OpenVC.Python.Url
import OpenVC.Resolvers
import OpenVC.RpRegistration
import OpenVC.Schema
import OpenVC.Status.Issue
import OpenVC.Status.PackedList
import OpenVC.Status.Proofs.IssueProofs
import OpenVC.Status.Proofs.PackedListProofs
import OpenVC.Status.StatusList
import OpenVC.Transport.Http
import OpenVC.Transport.Proofs.HttpProofs
import OpenVC.Transport.Proofs.HttpReadsProofs
import OpenVC.Transport.Proofs.HttpRefinesProofs
import OpenVC.Transport.Proofs.TnlFilesProofs
import OpenVC.TrustList.Lote
import OpenVC.TrustList.Model
import OpenVC.TrustList.Parse
import OpenVC.TrustList.Proofs.AuthenticProofs
import OpenVC.TrustList.Proofs.IsolationProofs
import OpenVC.TrustList.Proofs.LoteProofs
import OpenVC.TrustList.Proofs.LoteTypedProofs
import OpenVC.TrustList.Proofs.WalkProofs
import OpenVC.TypeMetadata
import OpenVC.Verify
import OpenVC.VerifyMany
import OpenVC.X5c
