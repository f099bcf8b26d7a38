import ColumnMasking.Bytes
import ColumnMasking.Engine
import ColumnMasking.Engine.Sm2
import ColumnMasking.Engine.Sm4
import ColumnMasking.Entropy
import ColumnMasking.Error
import ColumnMasking.ErrorKind
import ColumnMasking.Json
import ColumnMasking.Json.Printer
import ColumnMasking.Json.Reader
import ColumnMasking.KeyMaterial
import ColumnMasking.Proofs.CallResults
import ColumnMasking.Proofs.Engine.GcmNonces
import ColumnMasking.Proofs.Engine.GeneratedKeys
import ColumnMasking.Proofs.Engine.HexTexts
import ColumnMasking.Proofs.Engine.ReadTexts
import ColumnMasking.Proofs.Engine.Sm2Keys
import ColumnMasking.Proofs.Engine.Sm2Outcomes
import ColumnMasking.Proofs.Engine.Sm2RoundTrip
import ColumnMasking.Proofs.Engine.Sm4Columns
import ColumnMasking.Proofs.Engine.Sm4Inputs
import ColumnMasking.Proofs.Engine.Sm4KeyForms
import ColumnMasking.Proofs.Engine.Sm4Outcomes
import ColumnMasking.Proofs.Engine.Sm4Restoring
import ColumnMasking.Proofs.Engine.Sm4RoundTrip
import ColumnMasking.Proofs.Engine.Warnings
import ColumnMasking.Proofs.Engine.WrongIv
import ColumnMasking.Proofs.EnvironmentVariables
import ColumnMasking.Proofs.ExportedKeys
import ColumnMasking.Proofs.FirstFault
import ColumnMasking.Proofs.Json.Grammar
import ColumnMasking.Proofs.Json.Members
import ColumnMasking.Proofs.Json.ReaderTheorems
import ColumnMasking.Proofs.Json.StringsAndNumbers
import ColumnMasking.Proofs.KeyShapes
import ColumnMasking.Proofs.KeyTexts
import ColumnMasking.Proofs.NumberBytes
import ColumnMasking.Proofs.PartialSettings
import ColumnMasking.Proofs.Sm2.CanonicalKeys
import ColumnMasking.Proofs.Sm2.DecryptionOutcomes
import ColumnMasking.Proofs.Sm2.GroupLaw
import ColumnMasking.Proofs.Sm2.KeyForms
import ColumnMasking.Proofs.Sm2.PointCount
import ColumnMasking.Proofs.Sm2.Primality
import ColumnMasking.Proofs.Sm2.PrivateKeyTexts
import ColumnMasking.Proofs.Sm2.PublicKeyTexts
import ColumnMasking.Proofs.Sm2.ResidueRing
import ColumnMasking.Proofs.Sm2.ScalarSampling
import ColumnMasking.Proofs.Sm2.ScaledPoint
import ColumnMasking.Proofs.Sm2.SecondCoordinates
import ColumnMasking.Proofs.Sm2.SegmentTheorems
import ColumnMasking.Proofs.Sm2.SignatureTheorems
import ColumnMasking.Proofs.Sm2.SigningOutcomes
import ColumnMasking.Proofs.Sm2.VerificationOutcomes
import ColumnMasking.Proofs.Sm4.AcceptedCiphertexts
import ColumnMasking.Proofs.Sm4.BlockPositions
import ColumnMasking.Proofs.Sm4.BlockTexts
import ColumnMasking.Proofs.Sm4.KeyStream
import ColumnMasking.Proofs.Sm4.ModeTheorems
import ColumnMasking.Proofs.Sm4.UncheckedInputs
import ColumnMasking.Proofs.Sm4.XoredBlocks
import ColumnMasking.Proofs.Sql.FunctionResults
import ColumnMasking.Proofs.Sql.MaskRoundTrip
import ColumnMasking.Proofs.Sql.MissingParameters
import ColumnMasking.Proofs.Sql.ModeTypes
import ColumnMasking.Proofs.Sql.SignatureRoundTrip
import ColumnMasking.Proofs.Text.CanonicalTexts
import ColumnMasking.Proofs.Text.DigitNumbers
import ColumnMasking.Proofs.Text.DigitTexts
import ColumnMasking.Proofs.Text.EncodingRoundTrip
import ColumnMasking.Proofs.Text.LenientReading
import ColumnMasking.Proofs.Text.SignedNumbers
import ColumnMasking.Proofs.Text.StrictReadings
import ColumnMasking.Proofs.Text.Utf16RoundTrip
import ColumnMasking.Proofs.Text.Utf8Readings
import ColumnMasking.Proofs.Text.Utf8RoundTrip
import ColumnMasking.Proofs.Text.WrittenNames
import ColumnMasking.Redacted
import ColumnMasking.Reported
import ColumnMasking.Settings
import ColumnMasking.Sm2.Curve
import ColumnMasking.Sm2.Encryption
import ColumnMasking.Sm2.Key
import ColumnMasking.Sm2.Layout
import ColumnMasking.Sm2.Residue
import ColumnMasking.Sm2.Scalar
import ColumnMasking.Sm2.Sec1
import ColumnMasking.Sm2.Signature
import ColumnMasking.Sm3
import ColumnMasking.Sm4.Block
import ColumnMasking.Sm4.Cbc
import ColumnMasking.Sm4.Cipher
import ColumnMasking.Sm4.Ecb
import ColumnMasking.Sm4.Gcm
import ColumnMasking.Sm4.Ghash
import ColumnMasking.Sm4.Key
import ColumnMasking.Sm4.Mode
import ColumnMasking.Sm4.Padding
import ColumnMasking.Sql.Function
import ColumnMasking.Sql.Invoke
import ColumnMasking.StoredKey
import ColumnMasking.Suite
import ColumnMasking.Text.Base64
import ColumnMasking.Text.Blank
import ColumnMasking.Text.Encoding
import ColumnMasking.Text.Hex
import ColumnMasking.Text.Integer
import ColumnMasking.Text.Invisible
import ColumnMasking.Text.Quoted
import ColumnMasking.Text.Utf16
import ColumnMasking.Text.Utf8
import ColumnMasking.Word
