import Mathlib.Data.List.OfFn

/-! # Signed download links

The hexadecimal signature of a link, and what `download` takes for one. It reads
each byte with `u8::from_str_radix`, so digits of either case will do, and a plus
sign in place of the first.
-/

namespace IntelliPilot.Attachments.SignedLinks

abbrev Byte := BitVec 8

/-- The bytes of a text of characters below 128. -/
def ascii (c : Char) : Byte := BitVec.ofNat 8 c.toNat

/-- `char::from_digit(_, 16)`. -/
def fromDigit (n : Byte) : Byte :=
  if n < 10 then ascii '0' + n else ascii 'a' + (n - 10)

def hexEncode : List Byte → List Byte
  | [] => []
  | b :: rest => fromDigit (b >>> 4) :: fromDigit (b &&& 0x0f) :: hexEncode rest

/-- `char::to_digit(16)`, of a byte. -/
def toDigit (c : Byte) : Option Byte :=
  if ascii '0' ≤ c ∧ c ≤ ascii '9' then some (c - ascii '0')
  else if ascii 'a' ≤ c ∧ c ≤ ascii 'f' then some (c - ascii 'a' + 10)
  else if ascii 'A' ≤ c ∧ c ≤ ascii 'F' then some (c - ascii 'A' + 10)
  else none

/-- `u8::from_str_radix(_, 16)`, of two bytes. -/
def fromStrRadix (first second : Byte) : Option Byte := do
  let low ← toDigit second
  if first = ascii '+' then return low
  return (← toDigit first) <<< 4 ||| low

/-- `hex_decode`, of the bytes of a text. A character of several bytes is no digit, so it
makes no difference where the source refuses it. -/
def hexDecode : List Byte → Option (List Byte)
  | [] => some []
  | [_] => none
  | first :: second :: rest => do return (← fromStrRadix first second) :: (← hexDecode rest)

/-- The bytes of a number, the last first. -/
def leBytes (n : Nat) (x : BitVec (8 * n)) : List Byte :=
  List.ofFn fun i : Fin n => x.extractLsb' (8 * i) 8

/-- What is signed: the id's 16 bytes and the expiry's 8. -/
def message (id : BitVec (8 * 16)) (exp : BitVec (8 * 8)) : List Byte :=
  (leBytes 16 id).reverse ++ leBytes 8 exp

variable {Key : Type} (hmac : Key → List Byte → List Byte)

def sign (key : Key) (id : BitVec (8 * 16)) (exp : BitVec (8 * 8)) : List Byte :=
  hexEncode (hmac key (message id exp))

def verify (key : Key) (id : BitVec (8 * 16)) (exp : BitVec (8 * 8)) (sig : List Byte) : Bool :=
  match hexDecode sig with
  | none => false
  | some sig => hmac key (message id exp) == sig

/-! ## Round trips -/

theorem fromStrRadix_fromDigit (b : Byte) :
    fromStrRadix (fromDigit (b >>> 4)) (fromDigit (b &&& 0x0f)) = some b := by
  revert b
  decide +kernel

theorem hexDecode_hexEncode (bytes : List Byte) : hexDecode (hexEncode bytes) = some bytes := by
  induction bytes with
  | nil => rfl
  | cons b rest ih =>
    rw [hexEncode, hexDecode, fromStrRadix_fromDigit, ih]
    rfl

theorem leBytes_injective {n : Nat} {x y : BitVec (8 * n)} (h : leBytes n x = leBytes n y) :
    x = y := by
  apply BitVec.eq_of_getLsbD_eq
  intro i hi
  have hbyte := congrArg (·.getLsbD (i % 8)) (congrFun (List.ofFn_injective h) ⟨i / 8, by omega⟩)
  have hlt : i % 8 < 8 := Nat.mod_lt _ (by decide)
  simpa [BitVec.getLsbD_extractLsb', hlt, Nat.div_add_mod] using hbyte

theorem message_injective {id id' : BitVec (8 * 16)} {exp exp' : BitVec (8 * 8)}
    (h : message id exp = message id' exp') : id = id' ∧ exp = exp' := by
  obtain ⟨hid, hexp⟩ := List.append_inj h (by simp [leBytes])
  exact ⟨leBytes_injective (List.reverse_inj.mp hid), leBytes_injective hexp⟩

/-- A link opens what it was signed for, and anything else only where two different messages
have one authentication code. -/
theorem verify_sign_iff (key : Key) (id id' : BitVec (8 * 16)) (exp exp' : BitVec (8 * 8)) :
    verify hmac key id' exp' (sign hmac key id exp) = true ↔ id' = id ∧ exp' = exp ∨
      message id' exp' ≠ message id exp ∧
        hmac key (message id' exp') = hmac key (message id exp) := by
  rw [verify, sign, hexDecode_hexEncode, beq_iff_eq]
  constructor
  · intro heq
    by_cases hmessage : message id' exp' = message id exp
    · exact .inl (message_injective hmessage)
    · exact .inr ⟨hmessage, heq⟩
  · rintro (⟨rfl, rfl⟩ | ⟨-, heq⟩)
    · rfl
    · exact heq

end IntelliPilot.Attachments.SignedLinks
