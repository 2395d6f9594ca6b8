import AgentEcosystem.Text.UnicodeText

/-!
Base64 as a lenient reader takes it: what is not in the alphabet is skipped, and
padding that completes a group of four ends the text.
-/
namespace Base64
open UnicodeText

inductive BinasciiError where
  /-- One character behind the last whole group. -/
  | extraCharacter
  | incorrectPadding
  deriving DecidableEq, Repr

def sextet (b : UInt8) : Option ℕ :=
  let n := b.toNat
  if 0x41 ≤ n ∧ n ≤ 0x5A then some (n - 0x41)
  else if 0x61 ≤ n ∧ n ≤ 0x7A then some (n - 0x61 + 26)
  else if 0x30 ≤ n ∧ n ≤ 0x39 then some (n - 0x30 + 52)
  else if n = 0x2B then some 62
  else if n = 0x2F then some 63
  else none

def padChar : UInt8 := 0x3D

/-- `quadPos` characters of a group were read; `left` holds their bits that are in no
    byte yet, and `pads` counts the padding behind them. -/
def a2bFrom (quadPos left pads : ℕ) : Bytes → Except BinasciiError Bytes
  | [] =>
    if quadPos = 0 then .ok []
    else if quadPos = 1 then .error .extraCharacter
    else .error .incorrectPadding
  | b :: bs =>
    if b = padChar then
      if 2 ≤ quadPos then
        if 4 ≤ quadPos + (pads + 1) then .ok [] else a2bFrom quadPos left (pads + 1) bs
      else a2bFrom quadPos left pads bs
    else
      match sextet b, quadPos with
      | none, _ => a2bFrom quadPos left pads bs
      | some v, 0 => a2bFrom 1 v 0 bs
      | some v, 1 => do return .ofNat (left * 4 + v / 16) :: (← a2bFrom 2 (v % 16) 0 bs)
      | some v, 2 => do return .ofNat (left * 16 + v / 4) :: (← a2bFrom 3 (v % 4) 0 bs)
      | some v, _ => do return .ofNat (left * 64 + v) :: (← a2bFrom 0 0 0 bs)

/-- `base64.b64decode(s)` -/
def b64decode (s : Bytes) : Except BinasciiError Bytes := a2bFrom 0 0 0 s

example : b64decode ("aGlzdG9yeQ==".toUTF8.toList) = .ok "history".toUTF8.toList := by
  decide +kernel

def alphabet (n : ℕ) : UInt8 :=
  if n < 26 then .ofNat (0x41 + n)
  else if n < 52 then .ofNat (0x61 + (n - 26))
  else if n < 62 then .ofNat (0x30 + (n - 52))
  else if n = 62 then 0x2B
  else 0x2F

/-- `base64.b64encode(s)` -/
def b64encode : Bytes → Bytes
  | [] => []
  | [a] => [alphabet (a.toNat / 4), alphabet (a.toNat % 4 * 16), padChar, padChar]
  | [a, b] =>
    [alphabet (a.toNat / 4), alphabet (a.toNat % 4 * 16 + b.toNat / 16),
      alphabet (b.toNat % 16 * 4), padChar]
  | a :: b :: c :: s =>
    alphabet (a.toNat / 4) :: alphabet (a.toNat % 4 * 16 + b.toNat / 16) ::
      alphabet (b.toNat % 16 * 4 + c.toNat / 64) :: alphabet (c.toNat % 64) :: b64encode s

/-! The URL-safe alphabet writes `-` for `+` and `_` for `/`. -/

def toUrlsafe (b : UInt8) : UInt8 := if b = 0x2B then 0x2D else if b = 0x2F then 0x5F else b

def fromUrlsafe (b : UInt8) : UInt8 := if b = 0x2D then 0x2B else if b = 0x5F then 0x2F else b

/-- `base64.urlsafe_b64encode(s)` -/
def urlsafeB64encode (s : Bytes) : Bytes := (b64encode s).map toUrlsafe

/-- `base64.urlsafe_b64decode(s)` -/
def urlsafeB64decode (s : Bytes) : Except BinasciiError Bytes := b64decode (s.map fromUrlsafe)

end Base64
