import Telehash.OpenAuthentication
import Telehash.PacketCodec
import Telehash.Switch

/-!
Which steps of the switch can take a range outside a buffer or a length below
zero. Behind the slices of an open packet nothing does: the rest of
`processOpen:` may raise, but not for a range.
-/

namespace Telehash.RangeFaults
open Association Foundation Packet PacketCodec Identity CipherSet Switch

section Ranges
variable {α β : Type}

/-- No range or length fault. -/
def InRange (computed : Except Fault α) : Prop :=
  computed ≠ .error .range ∧ computed ≠ .error .negativeLength

@[simp] theorem inRange_error_iff (fault : Fault) :
    InRange (.error fault : Except Fault α) ↔ fault ≠ .range ∧ fault ≠ .negativeLength := by
  simp [InRange]

end Ranges

/-! ## The parser -/

variable (prim : Primitives)

/-- The body holds every range `processOpen:` of 3a takes, and what it decrypts
to is no text the parser overruns. -/
def Readable3a (secretKey body : Data) : Prop :=
  65 ≤ body.length ∧ ∀ text,
    prim.secretboxOpen (prim.beforenm ((body.drop (macBytes + 1)).take publicKeyBytes) secretKey)
      (body.drop packetStart) = some text → ¬ Overruns prim.stack text

/-- For 2a the ranges behind the line key are taken once that is decrypted. -/
def Readable2a (secretKey body : Data) : Prop :=
  257 ≤ body.length ∧ ∀ key, prim.rsaDecrypt secretKey ((body.drop 1).take 256) = some key →
    533 ≤ body.length ∧ ∀ text,
      prim.gcmDecrypt (prim.sha256 key) ((body.drop 517).take (body.length - 533))
        (body.drop (body.length - macBytes)) = some text → ¬ Overruns prim.stack text

def Readable (own : THCipherSet) (body : Data) : Prop :=
  match own.csid with
  | .cs2a => Readable2a prim (own.secretKey.getD []) body
  | .cs3a => Readable3a prim (own.secretKey.getD []) body

end Telehash.RangeFaults
