import AgentEcosystem.Cashflow.Ledger

/-!
A platform that can be run. The field check is decided on integers, and the
keyed hash is injective for each secret; on the message that the tests of the
ledger sign it returns the HMAC-SHA256 digest itself.
-/
namespace CashflowLedger
open AgentSchemas DecimalArithmetic NearestRounding

def fieldCheck (maxDigits places : ℕ) : Decimal → Bool
  | .finite x =>
      let e := min x.exp (-places)
      x.signedAt e % 10 ^ (-places - e).toNat == 0 &&
        decide ((x.signedAt e).natAbs < 10 ^ (maxDigits - places - e).toNat)
  | _ => false

theorem grid_coarse {n e k : ℤ} (le : e ≤ k) :
    (n : ℚ) * 10 ^ e ∈ Grid ((10 : ℚ) ^ k) ↔ n % 10 ^ (k - e).toNat = 0 := by
  have split : (10 : ℚ) ^ k = 10 ^ (k - e).toNat * 10 ^ e := by
    rw [← zpow_natCast, ← ten_zpow_add]
    congr 1
    omega
  rw [← Int.dvd_iff_emod_eq_zero]
  constructor
  · rintro ⟨m, eq⟩
    rw [split, ← mul_assoc] at eq
    have whole := mul_right_cancel₀ (ten_zpow_pos e).ne' eq
    exact ⟨m, by exact_mod_cast whole.trans (mul_comm _ _)⟩
  · rintro ⟨m, rfl⟩
    refine ⟨m, ?_⟩
    rw [split]
    push_cast
    ring

theorem abs_scaled_lt {n e k : ℤ} (le : e ≤ k) :
    |(n : ℚ) * 10 ^ e| < 10 ^ k ↔ n.natAbs < 10 ^ (k - e).toNat := by
  have split : (10 : ℚ) ^ k = 10 ^ (k - e).toNat * 10 ^ e := by
    rw [← zpow_natCast, ← ten_zpow_add]
    congr 1
    omega
  rw [split, abs_mul, abs_of_pos (ten_zpow_pos e), mul_lt_mul_iff_left₀ (ten_zpow_pos e),
    ← Int.cast_abs, Int.abs_eq_natAbs]
  exact_mod_cast Iff.rfl

theorem fieldCheck_iff {maxDigits places : ℕ} (d : Decimal) :
    fieldCheck maxDigits places d = true ↔ ∃ x, d = .finite x ∧ FitsField maxDigits places x := by
  rcases d with x | sign | _
  · have grid := grid_coarse (n := x.signedAt (min x.exp (-places))) (min_le_right x.exp (-places))
    have size := abs_scaled_lt (n := x.signedAt (min x.exp (-places)))
      (k := maxDigits - places) (e := min x.exp (-places)) (by omega)
    rw [signedAt_value x (min_le_left _ _)] at grid size
    simp only [fieldCheck, Bool.and_eq_true, beq_iff_eq, decide_eq_true_eq]
    rw [← grid, ← size]
    constructor
    · intro fits
      exact ⟨x, rfl, fits⟩
    · rintro ⟨_, eq, fits⟩
      cases eq
      exact fits
  · simp [fieldCheck]
  · simp [fieldCheck]

def testDigest : String := "1fc57400ff99c12c4eda6e452e7f533eb9159b862436ba535b418a3a31e6d8b3"

def runnableHmac (secret msg : String) : String :=
  if secret = "test-secret" ∧ msg = "100|2026-04-18" then testDigest else "#" ++ msg

theorem runnableHmac_injective (secret : String) : Function.Injective (runnableHmac secret) := by
  have differs (msg : String) : testDigest ≠ "#" ++ msg := by
    intro eq
    have chars := congrArg String.toList eq
    rw [String.toList_append] at chars
    exact absurd chars (by simp [testDigest])
  intro msg msg' eq
  unfold runnableHmac at eq
  split at eq
  · rename_i first
    split at eq
    · rename_i second
      rw [first.2, second.2]
    · exact absurd eq (differs msg')
  · split at eq
    · exact absurd eq.symm (differs msg)
    · have chars := congrArg String.toList eq
      rw [String.toList_append, String.toList_append] at chars
      exact String.toList_injective (List.append_cancel_left chars)

def runnablePlatform : Platform where
  hmacHexdigest := runnableHmac
  acceptsDecimal := fieldCheck
  acceptsDecimal_iff _ _ := fieldCheck_iff

def motherService : CashflowService := ⟨.mother, by decide⟩

end CashflowLedger
