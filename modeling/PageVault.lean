import PageVault.Opening
import PageVault.Proofs.ByteTable
import PageVault.Proofs.Cipher.Aes
import PageVault.Proofs.Cipher.Des
import PageVault.Proofs.Cipher.Rc2
import PageVault.Proofs.Cipher.Chaining
import PageVault.Proofs.Cipher.Transform
import PageVault.Proofs.Cipher.Pass
import PageVault.Proofs.Cipher.InPlace
import PageVault.Proofs.Outcome
import PageVault.Page.Calls
import PageVault.Proofs.Keys.Unlocking
import PageVault.Proofs.Page.History
import PageVault.Proofs.Page.Misuse
import PageVault.Proofs.Page.RoundTrip
import PageVault.Proofs.Page.Partial
import PageVault.Proofs.Verdict
import PageVault.Proofs.Bytes
import PageVault.Proofs.Keys.Derivation
import PageVault.Proofs.Page.Coding
import PageVault.Proofs.Reading
import PageVault.Proofs.Keys.Wrapping
import PageVault.Proofs.Files.Header
import PageVault.Proofs.Files.Msisam
import PageVault.Proofs.Files.Standard
import PageVault.Proofs.Files.Stream
import PageVault.Proofs.Files.Footprint
import PageVault.Proofs.Files.Scheme
import PageVault.Proofs.Asking
import PageVault.Proofs.Descriptor.Meaning
import PageVault.Proofs.Descriptor.Insertion
import PageVault.Proofs.Descriptor.Scoping
import PageVault.Proofs.Checked.Step
import PageVault.Proofs.Checked.Cipher
import PageVault.Proofs.Checked.Msisam
import PageVault.Proofs.Checked.Calls
import PageVault.Proofs.Checked.Opening
import PageVault.Proofs.Header.Declared
import PageVault.Proofs.Header.Fallback
import PageVault.Proofs.Header.RoundTrip
import PageVault.Proofs.Files.DigestSize
import PageVault.Proofs.Page.Recency
import PageVault.Proofs.Descriptor.Attribution
import PageVault.Proofs.Descriptor.BinaryValue
import PageVault.Proofs.Page.OtherBuffer
import PageVault.Proofs.Keys.OldMsisam
import PageVault.Proofs.Files.EffectivePassword
import PageVault.Proofs.Cipher.Rc4
import PageVault.Proofs.Keys.PageNumbers
import PageVault.Proofs.Checked.Fields
import PageVault.Proofs.Text.AlgorithmName
import PageVault.Proofs.Text.UpperCase
import PageVault.Proofs.Keys.Passwords
