import AgentEcosystem.Channels.RequestHosts
import AgentEcosystem.Semantics.Runs
import Mathlib

/-!
Amounts on their way to Stripe. A decimal is sent as whole cents, cut off and not
rounded, and what cannot be counted in cents is not sent at all.
-/
namespace Channels
open DecimalArithmetic JsonText Raising Runs UnicodeText

def towardZero (q : ℚ) : ℤ := if 0 ≤ q then ⌊q⌋ else ⌈q⌉

theorem truncated_magnitude (x : FiniteDecimal) :
    ((if 0 ≤ x.exp then x.coeff * 10 ^ x.exp.toNat else x.coeff / 10 ^ (-x.exp).toNat : ℕ) : ℤ) =
      ⌊(x.coeff : ℚ) * 10 ^ x.exp⌋ := by
  split
  · rename_i whole
    have power : (10 : ℚ) ^ x.exp = ((10 ^ x.exp.toNat : ℕ) : ℚ) := by
      rw [Nat.cast_pow, ← zpow_natCast, Int.toNat_of_nonneg whole]
      rfl
    rw [power, ← Nat.cast_mul, Int.floor_natCast]
  · rename_i fraction
    have power : (10 : ℚ) ^ x.exp = (((10 ^ (-x.exp).toNat : ℕ) : ℚ))⁻¹ := by
      rw [Nat.cast_pow, ← zpow_natCast, ← zpow_neg, Int.toNat_of_nonneg (by omega), neg_neg]
      rfl
    rw [power, ← div_eq_mul_inv, Rat.floor_natCast_div_natCast, Int.natCast_div]

theorem truncated_value (x : FiniteDecimal) : truncated x = towardZero x.toRat := by
  have positive : (0 : ℚ) ≤ x.coeff * 10 ^ x.exp :=
    mul_nonneg (Nat.cast_nonneg _) (ten_zpow_pos _).le
  rw [truncated, truncated_magnitude, towardZero, Context.toRat_mk x.neg x.coeff x.exp]
  cases x.neg with
  | false => simp only [Context.signFactor, Bool.false_eq_true, if_false, Int.cast_one, one_mul,
      if_pos positive]
  | true =>
    simp only [Context.signFactor, if_true, Int.cast_neg, Int.cast_one, neg_mul, one_mul]
    rcases positive.eq_or_lt with zero | pos
    · rw [← zero]
      simp
    · rw [if_neg (by linarith), Int.ceil_neg]

/-- The amount of a text of at most 28 digits, within the range of the context. -/
structure Exact (amount : Decimal) (q : ℚ) : Prop where
  value : amount.HasValue q
  short : q ∈ defaultContext.Representable
  small : |q * 100| < (10 : ℚ) ^ defaultContext.emax

theorem representable_hundredfold {q : ℚ} (short : q ∈ defaultContext.Representable) :
    q * 100 ∈ defaultContext.Representable := by
  obtain ⟨m, e, tiny, digits, rfl⟩ := short
  refine ⟨m, e + 2, by omega, digits, ?_⟩
  rw [ten_zpow_add]
  norm_num
  ring

theorem amountCents_exact {amount : Decimal} {q : ℚ} (exact : Exact amount q) :
    amountCents amount = .ok (towardZero (q * 100)) := by
  have hundred : (Decimal.ofNat 100).HasValue 100 := Decimal.hasValue_ofNat 100
  obtain ⟨product, computed, x, rfl, same⟩ := Decimal.mul_ok exact.value hundred exact.small
  rw [defaultContext.round_of_representable (representable_hundredfold exact.short)] at same
  rw [amountCents, computed]
  dsimp only
  rw [truncated_value, same]

def StripeConnectCall.amount : StripeConnectCall → Option Decimal
  | .createPaymentIntent amountUsd _ => some amountUsd
  | .createTransfer amountUsd _ => some amountUsd
  | .createPayout amountUsd _ => some amountUsd
  | _ => none

def Request.amount (r : Request) : Option ℤ :=
  match r.body with
  | .form fields =>
    match fields.lookup (text "amount") with
    | some (.int n) => some n
    | _ => none
  | _ => none

theorem beq_text (s t : String) : (text s == text t) = (s == t) := by
  rw [Bool.eq_iff_iff, beq_iff_eq, beq_iff_eq, text_eq_iff]

section Calls
variable (net : Network) (c : BaseChannelClient)

def stripeStep (sent : List Request) (call : StripeConnectCall) : List Request :=
  after (call.run net c) sent

variable {net c}

theorem after_ignored_send {α : Type} (r : Request) {k : Response → Calling α}
    (quiet : ∀ response t, after (k response) t = t) (sent : List Request) :
    after (ignored (send net r >>= k)) sent = sent ++ [r] := by
  have same : after (ignored (send net r >>= k)) sent = after (send net r >>= k) sent :=
    after_ignored (send net r >>= k) () sent
  rw [same, after_send r quiet]

theorem after_ignored_postForm (net : Network) (c : BaseChannelClient) (endpoint : String)
    (connected : List (Text × Text)) (fields : List (String × Json)) (sent : List Request) :
    ∃ r : Request, after (ignored (StripeConnect.postForm net c endpoint connected fields)) sent =
      sent ++ [r] ∧ r.body = .form (fields.map fun f => (text f.1, f.2)) :=
  ⟨_, after_ignored_send _ (fun response t => (checked_bind after_responseJson response t).1) sent,
    rfl⟩

theorem sends_amount (amountUsd : Decimal) (endpoint : String) (connected : List (Text × Text))
    (fields : List (String × Json)) (sent : List Request) :
    (after (ignored (do
        let cents ← attempt id (amountCents amountUsd)
        StripeConnect.postForm net c endpoint connected (("amount", .int cents) :: fields)))
      sent).filterMap Request.amount =
      sent.filterMap Request.amount ++ (amountCents amountUsd).toOption.toList := by
  rcases amountCents amountUsd with e | cents
  · exact (List.append_nil _).symm
  · obtain ⟨r, one, body⟩ := after_ignored_postForm net c endpoint connected
      (("amount", .int cents) :: fields) sent
    have moved : r.amount = some cents := by
      simp [Request.amount, body]
    change (after (ignored (StripeConnect.postForm net c endpoint connected
      (("amount", .int cents) :: fields))) sent).filterMap Request.amount = _
    rw [one, List.filterMap_append, List.filterMap_cons_some moved]
    rfl

theorem sends_none {r : Request} (none_moved : r.amount = none) (sent : List Request) :
    (sent ++ [r]).filterMap Request.amount = sent.filterMap Request.amount ++ [] := by
  rw [List.filterMap_append, List.filterMap_cons_none none_moved]
  rfl

/-- The cents that a call moves; an amount that has none is not sent. -/
def StripeConnectCall.cents (call : StripeConnectCall) : Option ℤ :=
  call.amount.bind fun amountUsd => (amountCents amountUsd).toOption

variable (net c)

theorem stripeStep_amounts (sent : List Request) (call : StripeConnectCall) :
    (stripeStep net c sent call).filterMap Request.amount =
      sent.filterMap Request.amount ++ call.cents.toList := by
  cases call with
  | health latencyMs =>
    have ping : OneRequest (fun r => r.body = .empty) (fun _ => True)
        (ignored (StripeConnect.health net c latencyMs)) := by
      apply oneRequest_ignored
      apply oneRequest_health (r := ⟨.get, c.baseUrl ++ text "/balance", c.authHeaders, .empty⟩)
      · rfl
      · exact after_send _ after_raiseForStatus
    rcases ping sent with ⟨e, raised⟩ | ⟨r, empty, one, _⟩
    · have same : stripeStep net c sent (.health latencyMs) = sent := congrArg Prod.snd raised
      rw [same]
      exact (List.append_nil _).symm
    · have same : stripeStep net c sent (.health latencyMs) = sent ++ [r] := one
      rw [same]
      apply sends_none
      rw [Request.amount, empty]
  | createCustomAccount country email =>
    obtain ⟨r, one, body⟩ := after_ignored_postForm net c "/accounts" [] _ sent
    rw [stripeStep, StripeConnectCall.run, StripeConnect.createCustomAccount, one]
    apply sends_none
    simp [Request.amount, body, List.lookup_cons, beq_text]
  | createAccountLink account refreshUrl returnUrl =>
    obtain ⟨r, one, body⟩ := after_ignored_postForm net c "/account_links" [] _ sent
    rw [stripeStep, StripeConnectCall.run, StripeConnect.createAccountLink, one]
    apply sends_none
    simp [Request.amount, body, List.lookup_cons, beq_text]
  | createPaymentIntent amountUsd connected => exact sends_amount amountUsd _ _ _ sent
  | createTransfer amountUsd destination => exact sends_amount amountUsd _ _ _ sent
  | createPayout amountUsd connected => exact sends_amount amountUsd _ _ _ sent

theorem run_amounts (sent : List Request) (calls : List StripeConnectCall) :
    (run (stripeStep net c) sent calls).filterMap Request.amount =
      sent.filterMap Request.amount ++ calls.filterMap StripeConnectCall.cents := by
  induction calls generalizing sent with
  | nil => exact (List.append_nil _).symm
  | cons call calls ih =>
    rw [run_cons, ih, stripeStep_amounts, List.append_assoc]
    cases moved : call.cents with
    | none => rw [List.filterMap_cons_none moved]; rfl
    | some cents => rw [List.filterMap_cons_some moved]; rfl

end Calls

section Totals
variable {qs : List ℚ}

theorem towardZero_nonneg {q : ℚ} (nonneg : 0 ≤ q) : towardZero q = ⌊q⌋ := if_pos nonneg

theorem cents_sum_bounds (nonneg : ∀ q ∈ qs, 0 ≤ q) :
    let cents := (qs.map fun q => towardZero (q * 100)).sum
    (cents : ℚ) ≤ qs.sum * 100 ∧ qs.sum * 100 ≤ cents + qs.length := by
  induction qs with
  | nil => simp
  | cons q qs ih =>
    obtain ⟨first, later⟩ := List.forall_mem_cons.mp nonneg
    obtain ⟨low, high⟩ := ih later
    have below := Int.floor_le (q * 100)
    have above := (Int.lt_floor_add_one (q * 100)).le
    simp only [List.map_cons, List.sum_cons, List.length_cons, Int.cast_add, Nat.cast_add,
      Nat.cast_one, towardZero_nonneg (mul_nonneg first (by norm_num : (0 : ℚ) ≤ 100))]
    constructor
    · linarith
    · linarith

theorem cents_sum_exact (nonneg : ∀ q ∈ qs, 0 ≤ q) :
    (((qs.map fun q => towardZero (q * 100)).sum : ℤ) : ℚ) = qs.sum * 100 ↔
      ∀ q ∈ qs, ∃ n : ℤ, q * 100 = n := by
  induction qs with
  | nil => simp
  | cons q qs ih =>
    obtain ⟨first, later⟩ := List.forall_mem_cons.mp nonneg
    have below := Int.floor_le (q * 100)
    have rest := (cents_sum_bounds later).1
    have whole : (⌊q * 100⌋ : ℚ) = q * 100 ↔ ∃ n : ℤ, q * 100 = n := by
      constructor
      · exact fun same => ⟨_, same.symm⟩
      · rintro ⟨n, same⟩
        rw [same, Int.floor_intCast]
    rw [List.forall_mem_cons, ← ih later, ← whole]
    simp only [List.map_cons, List.sum_cons, Int.cast_add,
      towardZero_nonneg (mul_nonneg first (by norm_num : (0 : ℚ) ≤ 100))]
    constructor
    · intro same
      exact ⟨by linarith, by linarith⟩
    · rintro ⟨head, tail⟩
      linarith

/-- However a client's calls are mixed and whatever the network answers, the requests ask
    for the amounts of the calls in their order, each cut off to cents; together they never
    ask for more, fall short by less than a cent for each amount, and by nothing at all
    exactly if all of them are in whole cents. -/
theorem money_moved {calls : List StripeConnectCall}
    (exact : List.Forall₂ Exact (calls.filterMap StripeConnectCall.amount) qs)
    (net : Network) (c : BaseChannelClient) (sent : List Request) :
    let cents := qs.map fun q => towardZero (q * 100)
    (run (stripeStep net c) sent calls).filterMap Request.amount =
      sent.filterMap Request.amount ++ cents ∧
    ((∀ q ∈ qs, 0 ≤ q) →
      (cents.sum : ℚ) ≤ qs.sum * 100 ∧ qs.sum * 100 ≤ cents.sum + qs.length ∧
      ((cents.sum : ℚ) = qs.sum * 100 ↔ ∀ q ∈ qs, ∃ n : ℤ, q * 100 = n)) := by
  intro cents
  constructor
  · rw [run_amounts]
    congr 1
    have each : calls.filterMap StripeConnectCall.cents =
        (calls.filterMap StripeConnectCall.amount).filterMap
          fun amountUsd => (amountCents amountUsd).toOption := (List.filterMap_filterMap).symm
    rw [each]
    generalize calls.filterMap StripeConnectCall.amount = amounts at exact
    induction exact with
    | nil => rfl
    | cons first _ ih =>
      rw [List.filterMap_cons, amountCents_exact first]
      exact congrArg _ ih
  · intro nonneg
    obtain ⟨low, high⟩ := cents_sum_bounds nonneg
    exact ⟨low, high, cents_sum_exact nonneg⟩

def payday : List StripeConnectCall :=
  [.createPayout (.finite ⟨false, 1999, -2⟩) (text "acct_1"), .health 3,
    .createTransfer (.finite ⟨false, 10005, -3⟩) (text "acct_2")]

theorem exact_of_digits {m : ℕ} {e : ℤ} (range : -6 ≤ e ∧ e ≤ 0) (digits : m < 10 ^ 6) :
    Exact (.finite ⟨false, m, e⟩) (m * (10 : ℚ) ^ e) := by
  have value : (FiniteDecimal.mk false m e).toRat = m * (10 : ℚ) ^ e := by
    rw [Context.toRat_mk]
    simp [Context.signFactor]
  refine ⟨⟨_, rfl, value⟩, ⟨m, e, ?_, ?_, by push_cast; rfl⟩, ?_⟩
  · simp only [Context.etiny, defaultContext]
    omega
  · rw [Nat.abs_cast]
    exact_mod_cast digits.trans (by decide)
  · have unit : (10 : ℚ) ^ e ≤ 1 := zpow_le_one_of_nonpos₀ (by norm_num) range.2
    have bound : (m : ℚ) < 10 ^ 6 := by exact_mod_cast digits
    have positive := ten_zpow_pos e
    rw [abs_of_nonneg (by positivity)]
    calc (m : ℚ) * 10 ^ e * 100 ≤ m * 1 * 100 := by gcongr
      _ < (10 : ℚ) ^ (8 : ℤ) := by norm_num; linarith
      _ ≤ (10 : ℚ) ^ defaultContext.emax := ten_zpow_le (by decide)

def answering : Network := ⟨fun _ => .ok ⟨200, some .null⟩, fun _ => none⟩

theorem payday_moved : let c : BaseChannelClient := ⟨text "stripe_connect", [], []⟩
    (run (stripeStep answering c) [] payday).filterMap Request.amount =
      [towardZero (1999 * 10 ^ (-2 : ℤ) * 100), towardZero (10005 * 10 ^ (-3 : ℤ) * 100)] ∧
    ¬ ((([towardZero (1999 * 10 ^ (-2 : ℤ) * 100),
      towardZero (10005 * 10 ^ (-3 : ℤ) * 100)].sum : ℤ) : ℚ) =
        [1999 * (10 : ℚ) ^ (-2 : ℤ), 10005 * (10 : ℚ) ^ (-3 : ℤ)].sum * 100) := by
  intro c
  have amounts : List.Forall₂ Exact (payday.filterMap StripeConnectCall.amount)
      [1999 * (10 : ℚ) ^ (-2 : ℤ), 10005 * (10 : ℚ) ^ (-3 : ℤ)] :=
    .cons (exact_of_digits (by decide) (by decide))
      (.cons (exact_of_digits (by decide) (by decide)) .nil)
  obtain ⟨moved, totals⟩ := money_moved amounts answering c []
  obtain ⟨_, _, whole⟩ := totals (by norm_num)
  refine ⟨moved, fun same => ?_⟩
  obtain ⟨n, halved⟩ := whole.mp same (10005 * (10 : ℚ) ^ (-3 : ℤ)) (by simp)
  have twice : (2001 : ℚ) = ((2 * n : ℤ) : ℚ) := by
    rw [Int.cast_mul, ← halved]
    norm_num
  have odd : (2001 : ℤ) = 2 * n := by exact_mod_cast twice
  omega

end Totals

end Channels
