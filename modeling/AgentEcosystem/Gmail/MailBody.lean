import AgentEcosystem.Gmail.PushWebhook
import AgentEcosystem.Text.Base64RoundTrip
import AgentEcosystem.Text.Utf8RoundTrip
import Mathlib.Data.List.Count

/-!
The body of a mail comes in URL-safe base64, the data of a push in the standard one.
Both are padded from the length of the text before they are decoded.
-/
namespace MailBody
open Base64 JsonText PushWebhook UnicodeText

inductive BodyError where
  | unicodeEncodeError
  | binasciiError (e : BinasciiError)
  deriving DecidableEq, Repr

/-- `base64.urlsafe_b64decode((b64 + pad).encode()).decode("utf-8", errors="replace")` -/
def decodeBody (b64 : Text) : Except BodyError Text :=
  match encode (b64 ++ padding b64) with
  | none => .error .unicodeEncodeError
  | some ascii => (urlsafeB64decode ascii).mapError .binasciiError |>.map decodeReplace

def Stripped (encoded : Bytes) (t : Text) : Prop :=
  ∃ k, t ++ List.replicate k (ofChar '=') = asciiText encoded

theorem asciiChar_injective : Function.Injective fun b : UInt8 => Fin.ofNat 0x110000 b.toNat := by
  intro a b same
  have values := congrArg Fin.val same
  have boundA := a.toNat_lt
  have boundB := b.toNat_lt
  simp only [Fin.val_ofNat] at values
  exact UInt8.toNat_inj.mp (by omega)

/- Up to two `=` are missing, and the length tells how many. -/
theorem padding_of_stripped {encoded : Bytes} {t : Text} (groups : 4 ∣ encoded.length)
    (few : encoded.count padChar ≤ 2) (stripped : Stripped encoded t) :
    t ++ padding t = asciiText encoded := by
  obtain ⟨k, whole⟩ := stripped
  have lengths := congrArg List.length whole
  have pads := congrArg (List.count (ofChar '=')) whole
  have counted : (asciiText encoded).count (ofChar '=') = encoded.count padChar :=
    List.count_map_of_injective encoded _ asciiChar_injective padChar
  rw [List.count_append, List.count_replicate_self, counted] at pads
  rw [List.length_append, List.length_replicate, asciiText, List.length_map] at lengths
  have missing : (-(t.length : ℤ) % 4).toNat = k := by omega
  rw [padding, missing, whole]

theorem encode_stripped {b : Bytes} {t : Text} (stripped : Stripped (b64encode b) t) :
    encode (t ++ padding t) = some (b64encode b) := by
  rw [padding_of_stripped (length_b64encode b) (count_padChar_b64encode b) stripped]
  exact encode_asciiText fun c mem => (ascii_b64encode c mem).1

theorem encode_stripped_urlsafe {b : Bytes} {t : Text} (stripped : Stripped (urlsafeB64encode b) t) :
    encode (t ++ padding t) = some (urlsafeB64encode b) := by
  rw [padding_of_stripped (length_urlsafeB64encode b) (count_padChar_urlsafe b) stripped]
  apply encode_asciiText
  intro c mem
  obtain ⟨d, inside, rfl⟩ := List.mem_map.mp mem
  exact (ascii_b64encode d inside).2

/-- The data of a push and the body of a mail are decoded to what was encoded, however
    much of the padding was removed. -/
theorem stripped_decodes (b : Bytes) :
    (∀ t, Stripped (b64encode b) t →
      (∃ ascii, encode (t ++ padding t) = some ascii ∧ b64decode ascii = .ok b) ∧
      ∀ maxDepth, decodePayload maxDepth t = (decodeStrict b).elim (.error .unicodeDecodeError)
        fun document => (loads maxDepth document).mapError .jsonError) ∧
    ∀ t, Stripped (urlsafeB64encode b) t →
      (∃ ascii, encode (t ++ padding t) = some ascii ∧ urlsafeB64decode ascii = .ok b) ∧
      decodeBody t = .ok (decodeReplace b) := by
  constructor
  · intro t stripped
    have restored := encode_stripped stripped
    refine ⟨⟨_, restored, b64decode_b64encode b⟩, ?_⟩
    intro maxDepth
    rw [decodePayload, restored]
    simp only [b64decode_b64encode]
    cases decodeStrict b with
    | none => rfl
    | some document => rfl
  · intro t stripped
    have restored := encode_stripped_urlsafe stripped
    refine ⟨⟨_, restored, urlsafeB64decode_urlsafeB64encode b⟩, ?_⟩
    rw [decodeBody, restored]
    simp only [urlsafeB64decode_urlsafeB64encode]
    rfl

def quoted : Bytes := [0x22, 0x7E, 0x3F, 0x22]

theorem quoted_decodes :
    (∃ ascii, encode (text "In4/Ig" ++ padding (text "In4/Ig")) = some ascii ∧
      b64decode ascii = .ok quoted) ∧
    decodeBody (text "In4_Ig=") = .ok (text "\"~?\"") := by
  have standard : Stripped (b64encode quoted) (text "In4/Ig") := ⟨2, by decide⟩
  have urlsafe : Stripped (urlsafeB64encode quoted) (text "In4_Ig=") := ⟨1, by decide⟩
  exact ⟨((stripped_decodes quoted).1 _ standard).1, ((stripped_decodes quoted).2 _ urlsafe).2⟩

end MailBody
