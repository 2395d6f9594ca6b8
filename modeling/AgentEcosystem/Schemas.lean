import AgentEcosystem.Text.UnicodeText

/-!
Primitives shared by the components. `value` is the string a member of an
enumeration is stored and printed as.
-/
namespace AgentSchemas
open UnicodeText

instance someUuid : NeZero (2 ^ 128 : ℕ) := ⟨by decide⟩

structure Uuid where
  value : Fin (2 ^ 128)
  deriving DecidableEq, Repr

def hexDigits (k n : Nat) : List Char :=
  (List.range k).map fun i => Nat.digitChar (n / 16 ^ (k - 1 - i) % 16)

/-- `str(uuid)` -/
def Uuid.str (u : Uuid) : String :=
  let n := u.value.val
  String.ofList (hexDigits 8 (n / 16 ^ 24) ++ '-' :: hexDigits 4 (n / 16 ^ 20) ++
    '-' :: hexDigits 4 (n / 16 ^ 16) ++ '-' :: hexDigits 4 (n / 16 ^ 12) ++ '-' :: hexDigits 12 n)

example : (Uuid.mk 0xabcdef).str = "00000000-0000-0000-0000-000000abcdef" := by decide

structure Timestamp where
  iso : String
  deriving DecidableEq, Repr

/-- `^[a-f0-9]{64}$` -/
def isHexDigest (s : String) : Bool :=
  s.length == 64 && s.toList.all fun c => ('a' ≤ c && c ≤ 'f') || c.isDigit

/-- The hash function, of which only the shape of its digests is known. -/
structure Sha256 where
  hexdigest : Bytes → String
  hex : ∀ bytes, (hexdigest bytes).length = 64 ∧
    ∀ c ∈ (hexdigest bytes).toList, c ∈ "0123456789abcdef".toList

theorem hex_of_all {digest : String}
    (h : digest.length = 64 ∧
      (digest.toList.all fun c => decide (c ∈ "0123456789abcdef".toList)) = true) :
    digest.length = 64 ∧ ∀ c ∈ digest.toList, c ∈ "0123456789abcdef".toList :=
  ⟨h.1, fun c mem => of_decide_eq_true (List.all_eq_true.mp h.2 c mem)⟩

theorem zeros_hex :
    "0000000000000000000000000000000000000000000000000000000000000000".length = 64 ∧
      ("0000000000000000000000000000000000000000000000000000000000000000".toList.all
        fun c => decide (c ∈ "0123456789abcdef".toList)) = true := by decide +kernel

theorem hexdigest_fits (sha256 : Sha256) (bytes : Bytes) :
    isHexDigest (sha256.hexdigest bytes) = true := by
  obtain ⟨length, digits⟩ := sha256.hex bytes
  have accepted : ∀ c ∈ "0123456789abcdef".toList,
      (('a' ≤ c && c ≤ 'f') || c.isDigit) = true := List.all_eq_true.mp (by decide)
  rw [isHexDigest, Bool.and_eq_true, List.all_eq_true, beq_iff_eq]
  exact ⟨length, fun c mem => accepted c (digits c mem)⟩

inductive AgentTier where
  | mother | codeBuilder | ethicsAuditor | child
  deriving DecidableEq, Repr

def AgentTier.value : AgentTier → String
  | .mother => "mother"
  | .codeBuilder => "code_builder"
  | .ethicsAuditor => "ethics_auditor"
  | .child => "child"

inductive ModelID where
  | opus47 | sonnet46 | haiku45 | geminiFlashLite25
  deriving DecidableEq, Repr

inductive TaskKind where
  | proposeVertical | debugChild | bulkClassify | generic
  deriving DecidableEq, Repr

inductive RevenueChannel where
  | polar | lemonsqueezy | stripeConnect
  deriving DecidableEq, Repr

def RevenueChannel.value : RevenueChannel → String
  | .polar => "polar"
  | .lemonsqueezy => "lemonsqueezy"
  | .stripeConnect => "stripe_connect"

inductive Pot where
  | operating | reserve | growth
  deriving DecidableEq, Repr

inductive CashflowSource where
  | revenuePolar | revenueLemonsqueezy | revenueStripe
  | costAnthropic | costGoogle | costInfra | costDomain
  | transferOperatingToReserve | transferOperatingToGrowth | transferGrowthToOperating
  | manualTopup
  | emergencyTransferReserveToOperating
  deriving DecidableEq, Repr

end AgentSchemas
