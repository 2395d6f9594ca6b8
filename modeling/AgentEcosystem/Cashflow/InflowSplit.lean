import AgentEcosystem.Cashflow.Writes
import AgentEcosystem.Cashflow.FieldCheck

/-!
What an inflow adds to the pots. Every amount below the range of the context at
four decimals is handled exactly, so the parts of a split always add up to the
amount. A part below zero, which a pot above its cap gets, is not recorded, and
what Operating received for it stays: the pots then gain more than the amount.
-/
namespace CashflowLedger
open AgentSchemas DecimalArithmetic NearestRounding Raising Decimal Runs

def PotsFit (rows : Ledger) : Prop := ∀ p, |reported rows p| < 10 ^ 23

theorem potsFit_of_length {rows : Ledger} (short : rows.length ≤ 10 ^ 14) : PotsFit rows := by
  have size : ∀ p, |reported rows p| ≤ rows.length * 10 ^ 8 := by
    intro p
    induction rows using List.reverseRecOn with
    | nil => simp
    | append_singleton rows row ih =>
      have before := ih (by simp at short; omega)
      have count : ((rows ++ [row]).length : ℚ) = rows.length + 1 := by simp
      rw [count]
      by_cases same : row.pot = p
      · have delta := field_small row.delta_fits
        have sum := abs_add_le (reported rows p) row.delta.toRat
        have length : (rows.length : ℚ) ≤ 10 ^ 14 := by
          simp only [List.length_append, List.length_singleton] at short
          exact_mod_cast (by omega : rows.length ≤ 10 ^ 14)
        rw [reported_append_same rows same,
          round_money (grid_add (reported_grid rows p) (field_grid row.delta_fits)) (by linarith)]
        linarith
      · rw [reported_append_other rows same]
        linarith
  intro p
  have length : (rows.length : ℚ) ≤ 10 ^ 14 := by exact_mod_cast short
  have bound := size p
  linarith

/-- `quantize` to four decimals. -/
def toPlaces (x : ℚ) : ℚ := roundGrid ((10 : ℚ) ^ fourPlaces) x

theorem toPlaces_grid (x : ℚ) : toPlaces x ∈ Grid ((10 : ℚ) ^ (-4 : ℤ)) := roundGrid_mem _ _

theorem toPlaces_money {x : ℚ} (onGrid : x ∈ Grid ((10 : ℚ) ^ (-4 : ℤ))) : toPlaces x = x :=
  roundGrid_of_mem (ten_zpow_pos _) onGrid

theorem toPlaces_near (x : ℚ) : |x - toPlaces x| ≤ 1 / 20000 := by
  have half : (10 : ℚ) ^ fourPlaces / 2 = 1 / 20000 := by norm_num [fourPlaces]
  rw [← half]
  exact roundGrid_error (ten_zpow_pos fourPlaces) x

theorem toPlaces_nonneg {x : ℚ} (nonneg : 0 ≤ x) : 0 ≤ toPlaces x :=
  le_nearest (roundGrid_nearest (ten_zpow_pos _) x) (grid_zero _) nonneg

theorem round_near {x : ℚ} (small : |x| < 10 ^ 26) : |x - defaultContext.round x| ≤ 1 / 200 := by
  have error := defaultContext.round_error (k := -2) (x := x) (by decide)
    (by norm_num [defaultContext]; linarith)
  norm_num at error
  exact error

def shareValue (amount part : ℚ) : ℚ := toPlaces (defaultContext.round (amount * part))

def rollValue (current : ℚ) (cap : Option ℚ) (op part : ℚ) : ℚ × ℚ :=
  match cap with
  | none => (op, part)
  | some cap =>
      let filled := defaultContext.round (current + part)
      if cap < filled then
        let overflow := defaultContext.round (filled - cap)
        (defaultContext.round (op + overflow), defaultContext.round (part - overflow))
      else (op, part)

def baseValue (amount : ℚ) : ℚ :=
  let op := shareValue amount (3 / 5)
  let parts := defaultContext.round (defaultContext.round
    (op + shareValue amount (1 / 4)) + shareValue amount (3 / 20))
  defaultContext.round (op + defaultContext.round (amount - parts))

def splitValue (amount reserve : ℚ) (reserveCap : Option ℚ) (growth : ℚ) (growthCap : Option ℚ) :
    ℚ × ℚ × ℚ :=
  let res := rollValue reserve reserveCap (baseValue amount) (shareValue amount (1 / 4))
  let gr := rollValue growth growthCap res.1 (shareValue amount (3 / 20))
  (toPlaces gr.1, toPlaces res.2, toPlaces gr.2)

def CapValue (cap : Option Decimal) (c : Option ℚ) : Prop :=
  match cap, c with
  | none, none => True
  | some d, some q => d.HasValue q
  | _, _ => False

theorem capValue_finite (cap : Option FiniteDecimal) :
    CapValue (cap.map .finite) (cap.map FiniteDecimal.toRat) := by
  cases cap with
  | none => trivial
  | some c => exact hasValue_finite c

theorem quantize_value {d v : Decimal} {q : ℚ} (has : d.HasValue q)
    (h : d.quantize defaultContext fourPlaces = .ok v) :
    v.HasValue (toPlaces q) ∧ |toPlaces q| < 10 ^ 24 := by
  obtain ⟨value, bound⟩ := quantize_hasValue has h
  norm_num [defaultContext, fourPlaces] at bound
  refine ⟨value, ?_⟩
  norm_num [toPlaces, fourPlaces]
  exact bound

theorem share_value {amount split v : Decimal} {a p : ℚ} (ha : amount.HasValue a)
    (hp : split.HasValue p) (h : share amount split = .ok v) :
    v.HasValue (shareValue a p) ∧ |shareValue a p| < 10 ^ 24 := by
  obtain ⟨product, multiplied, h⟩ := ok_of_bind h
  exact quantize_value (mul_hasValue ha hp multiplied) h

theorem rollOverflow_value {current opAmt part : Decimal} {cap : Option Decimal} {r o q : ℚ}
    {c : Option ℚ} {result : Decimal × Decimal} (hr : current.HasValue r) (hc : CapValue cap c)
    (ho : opAmt.HasValue o) (hq : part.HasValue q)
    (h : rollOverflow current cap opAmt part = .ok result) :
    result.1.HasValue (rollValue r c o q).1 ∧ result.2.HasValue (rollValue r c o q).2 := by
  cases cap with
  | none =>
    cases c with
    | none =>
      cases h
      exact ⟨ho, hq⟩
    | some c => exact absurd hc id
  | some cap =>
    cases c with
    | none => exact absurd hc id
    | some c =>
      obtain ⟨filled, added, h⟩ := ok_of_bind h
      have hfilled := add_hasValue hr hq added
      rw [lt_hasValue hc hfilled] at h
      obtain ⟨isOver, decided, h⟩ := ok_of_bind h
      cases decided
      by_cases exceeds : c < defaultContext.round (r + q)
      · rw [if_pos (decide_eq_true exceeds)] at h
        obtain ⟨overflow, diff, h⟩ := ok_of_bind h
        obtain ⟨part', lowered, h⟩ := ok_of_bind h
        obtain ⟨opAmt', raised, h⟩ := ok_of_bind h
        cases h
        have hover := sub_hasValue hfilled hc diff
        simp only [rollValue, if_pos exceeds]
        exact ⟨add_hasValue ho hover raised, sub_hasValue hq hover lowered⟩
      · rw [if_neg (by simpa using exceeds)] at h
        cases h
        simp only [rollValue, if_neg exceeds]
        exact ⟨ho, hq⟩

theorem split_values : operatingSplit.HasValue (3 / 5) ∧ reserveSplit.HasValue (1 / 4) ∧
    growthSplit.HasValue (3 / 20) :=
  ⟨⟨_, rfl, by decide +kernel⟩, ⟨_, rfl, by decide +kernel⟩, ⟨_, rfl, by decide +kernel⟩⟩

theorem splitInflow_value {amountUsd currentReserve currentGrowth : Decimal}
    {reserveCap growthCap : Option Decimal} {a r g : ℚ} {c k : Option ℚ} {s : InflowSplit}
    (ha : amountUsd.HasValue a) (hr : currentReserve.HasValue r) (hc : CapValue reserveCap c)
    (hg : currentGrowth.HasValue g) (hk : CapValue growthCap k)
    (h : splitInflow amountUsd currentReserve reserveCap currentGrowth growthCap = .ok s) :
    s.operating.HasValue (splitValue a r c g k).1 ∧
      s.reserve.HasValue (splitValue a r c g k).2.1 ∧
      s.growth.HasValue (splitValue a r c g k).2.2 ∧ |shareValue a (3 / 5)| < 10 ^ 24 := by
  obtain ⟨opAmt, shared, h⟩ := ok_of_bind h
  obtain ⟨hop, opSmall⟩ := share_value ha split_values.1 shared
  obtain ⟨resAmt, shared, h⟩ := ok_of_bind h
  have hres := (share_value ha split_values.2.1 shared).1
  obtain ⟨grAmt, shared, h⟩ := ok_of_bind h
  have hgr := (share_value ha split_values.2.2 shared).1
  obtain ⟨two, added, h⟩ := ok_of_bind h
  have htwo := add_hasValue hop hres added
  obtain ⟨parts, added, h⟩ := ok_of_bind h
  have hparts := add_hasValue htwo hgr added
  obtain ⟨residue, diff, h⟩ := ok_of_bind h
  have hresidue := sub_hasValue ha hparts diff
  obtain ⟨opAmt', added, h⟩ := ok_of_bind h
  have hop' := add_hasValue hop hresidue added
  obtain ⟨rolled, roll, h⟩ := ok_of_bind h
  have hrolled := rollOverflow_value hr hc hop' hres roll
  obtain ⟨rolled', roll', h⟩ := ok_of_bind h
  have hrolled' := rollOverflow_value hg hk hrolled.1 hgr roll'
  obtain ⟨op, quantized, h⟩ := ok_of_bind h
  obtain ⟨res, quantized', h⟩ := ok_of_bind h
  obtain ⟨gr, quantized'', h⟩ := ok_of_bind h
  cases h
  exact ⟨(quantize_value hrolled'.1 quantized).1, (quantize_value hrolled.2 quantized').1,
    (quantize_value hrolled'.2 quantized'').1, opSmall⟩

/-- A pot's part after its cap is applied; negative when the pot is above the cap. -/
def cappedPart (current : ℚ) (cap : Option ℚ) (part : ℚ) : ℚ :=
  match cap with
  | none => part
  | some cap => min part (cap - current)

theorem shareValue_grid (a p : ℚ) : shareValue a p ∈ Grid ((10 : ℚ) ^ (-4 : ℤ)) :=
  toPlaces_grid _

theorem shareValue_nonneg {a p : ℚ} (ha : 0 ≤ a) (hp : 0 ≤ p) : 0 ≤ shareValue a p :=
  toPlaces_nonneg (defaultContext.rounding.le_round zero_representable (mul_nonneg ha hp))

theorem shareValue_near {a p : ℚ} (small : |a * p| < 10 ^ 26) :
    |a * p - shareValue a p| ≤ 1 / 100 := by
  have first := round_near small
  have second := toPlaces_near (defaultContext.round (a * p))
  have triangle := abs_sub_le (a * p) (defaultContext.round (a * p)) (shareValue a p)
  unfold shareValue at triangle ⊢
  linarith

theorem shares_near {a : ℚ} (nonneg : 0 ≤ a) (small : a < 10 ^ 25) :
    |a * (3 / 5) - shareValue a (3 / 5)| ≤ 1 / 100 ∧
      |a * (1 / 4) - shareValue a (1 / 4)| ≤ 1 / 100 ∧
      |a * (3 / 20) - shareValue a (3 / 20)| ≤ 1 / 100 := by
  have part : ∀ p : ℚ, 0 ≤ p → p ≤ 1 → |a * p| < 10 ^ 26 := by
    intro p lower upper
    have bound : a * p ≤ a := mul_le_of_le_one_right nonneg upper
    rw [abs_of_nonneg (mul_nonneg nonneg lower)]
    linarith
  exact ⟨shareValue_near (part _ (by norm_num) (by norm_num)),
    shareValue_near (part _ (by norm_num) (by norm_num)),
    shareValue_near (part _ (by norm_num) (by norm_num))⟩

/- Rounding apart, Operating starts from its share: the shares add up to the amount. -/
theorem baseValue_near {a : ℚ} (nonneg : 0 ≤ a) (small : a < 10 ^ 25) :
    a * (3 / 5) - 1 / 10 ≤ baseValue a := by
  obtain ⟨nearOp, nearRes, nearGr⟩ := shares_near nonneg small
  have op := abs_le.mp nearOp
  have res := abs_le.mp nearRes
  have gr := abs_le.mp nearGr
  unfold baseValue
  extract_lets opAmt parts
  have two := abs_le.mp (round_near (x := opAmt + shareValue a (1 / 4))
    (by rw [abs_lt]; constructor <;> simp only [opAmt] <;> linarith))
  have all := abs_le.mp (round_near (x := defaultContext.round (opAmt + shareValue a (1 / 4)) +
    shareValue a (3 / 20)) (by rw [abs_lt]; constructor <;> simp only [opAmt] at two ⊢ <;> linarith))
  have residue := abs_le.mp (round_near (x := a - parts)
    (by rw [abs_lt]; constructor <;> simp only [opAmt, parts] at two all ⊢ <;> linarith))
  have base := abs_le.mp (round_near (x := opAmt + defaultContext.round (a - parts))
    (by rw [abs_lt]; constructor <;> simp only [opAmt, parts] at two all residue ⊢ <;> linarith))
  simp only [opAmt, parts] at two all residue base ⊢
  linarith

theorem baseValue_exact {a : ℚ} (onGrid : a ∈ Grid ((10 : ℚ) ^ (-4 : ℤ))) (nonneg : 0 ≤ a)
    (small : a < 10 ^ 9) :
    baseValue a = a - shareValue a (1 / 4) - shareValue a (3 / 20) := by
  obtain ⟨nearOp, nearRes, nearGr⟩ := shares_near nonneg (by linarith)
  have op := abs_le.mp nearOp
  have res := abs_le.mp nearRes
  have gr := abs_le.mp nearGr
  have opGrid := shareValue_grid a (3 / 5)
  have resGrid := shareValue_grid a (1 / 4)
  have grGrid := shareValue_grid a (3 / 20)
  have two : defaultContext.round (shareValue a (3 / 5) + shareValue a (1 / 4)) =
      shareValue a (3 / 5) + shareValue a (1 / 4) :=
    round_money (grid_add opGrid resGrid) (by rw [abs_lt]; constructor <;> linarith)
  have all : defaultContext.round (shareValue a (3 / 5) + shareValue a (1 / 4) +
      shareValue a (3 / 20)) = shareValue a (3 / 5) + shareValue a (1 / 4) + shareValue a (3 / 20) :=
    round_money (grid_add (grid_add opGrid resGrid) grGrid)
      (by rw [abs_lt]; constructor <;> linarith)
  have residue : defaultContext.round (a - (shareValue a (3 / 5) + shareValue a (1 / 4) +
      shareValue a (3 / 20))) = a - (shareValue a (3 / 5) + shareValue a (1 / 4) +
      shareValue a (3 / 20)) :=
    round_money (grid_sub onGrid (grid_add (grid_add opGrid resGrid) grGrid))
      (by rw [abs_lt]; constructor <;> linarith)
  have base : shareValue a (3 / 5) + (a - (shareValue a (3 / 5) + shareValue a (1 / 4) +
      shareValue a (3 / 20))) = a - shareValue a (1 / 4) - shareValue a (3 / 20) := by ring
  simp only [baseValue, two, all, residue, base]
  exact round_money (grid_sub (grid_sub onGrid resGrid) grGrid)
    (by rw [abs_lt]; constructor <;> linarith)

theorem rollValue_exact {r o p : ℚ} {cap : Option ℚ} (hr : r ∈ Grid ((10 : ℚ) ^ (-4 : ℤ)))
    (ho : o ∈ Grid ((10 : ℚ) ^ (-4 : ℤ))) (hp : p ∈ Grid ((10 : ℚ) ^ (-4 : ℤ)))
    (hc : ∀ c ∈ cap, c ∈ Grid ((10 : ℚ) ^ (-4 : ℤ)) ∧ 0 ≤ c) (rSmall : |r| < 10 ^ 23)
    (oSmall : |o| < 3 * 10 ^ 23) (pNonneg : 0 ≤ p) (pSmall : p < 10 ^ 10) :
    rollValue r cap o p = (o + (p - cappedPart r cap p), cappedPart r cap p) := by
  cases cap with
  | none => simp [rollValue, cappedPart]
  | some c =>
    obtain ⟨cGrid, cNonneg⟩ := hc c rfl
    obtain ⟨rLow, rHigh⟩ := abs_lt.mp rSmall
    obtain ⟨oLow, oHigh⟩ := abs_lt.mp oSmall
    have filled : defaultContext.round (r + p) = r + p :=
      round_money (grid_add hr hp) (by rw [abs_lt]; constructor <;> linarith)
    simp only [rollValue, cappedPart, filled]
    by_cases exceeds : c < r + p
    · have overflow : defaultContext.round (r + p - c) = r + p - c :=
        round_money (grid_sub (grid_add hr hp) cGrid) (by rw [abs_lt]; constructor <;> linarith)
      have raised : defaultContext.round (o + (r + p - c)) = o + (r + p - c) :=
        round_money (grid_add ho (grid_sub (grid_add hr hp) cGrid))
          (by rw [abs_lt]; constructor <;> linarith)
      have lowered : defaultContext.round (p - (r + p - c)) = p - (r + p - c) :=
        round_money (grid_sub hp (grid_sub (grid_add hr hp) cGrid))
          (by rw [abs_lt]; constructor <;> linarith)
      rw [if_pos exceeds, overflow, raised, lowered, min_eq_right (by linarith)]
      ring_nf
    · rw [if_neg exceeds, min_eq_left (by linarith)]
      simp

theorem cappedPart_grid {r p : ℚ} {cap : Option ℚ} (hr : r ∈ Grid ((10 : ℚ) ^ (-4 : ℤ)))
    (hp : p ∈ Grid ((10 : ℚ) ^ (-4 : ℤ))) (hc : ∀ c ∈ cap, c ∈ Grid ((10 : ℚ) ^ (-4 : ℤ))) :
    cappedPart r cap p ∈ Grid ((10 : ℚ) ^ (-4 : ℤ)) := by
  cases cap with
  | none => exact hp
  | some c =>
    rcases min_choice p (c - r) with part | room
    · rw [cappedPart, part]
      exact hp
    · rw [cappedPart, room]
      exact grid_sub (hc c rfl) hr

theorem cappedPart_le (r p : ℚ) (cap : Option ℚ) : cappedPart r cap p ≤ p := by
  cases cap with
  | none => exact le_refl p
  | some c => exact min_le_left _ _

theorem le_cappedPart {r p : ℚ} {cap : Option ℚ} (hc : ∀ c ∈ cap, 0 ≤ c) (hp : 0 ≤ p)
    (small : |r| < 10 ^ 23) : -10 ^ 23 ≤ cappedPart r cap p := by
  obtain ⟨_, high⟩ := abs_lt.mp small
  cases cap with
  | none =>
    unfold cappedPart
    linarith
  | some c =>
    have := hc c rfl
    exact le_min (by linarith) (by linarith)

theorem cappedPart_nonneg_iff {r p : ℚ} {cap : Option ℚ} (hp : 0 ≤ p) :
    0 ≤ cappedPart r cap p ↔ ∀ c ∈ cap, r ≤ c := by
  cases cap with
  | none => simp [cappedPart, hp]
  | some c => simp [cappedPart, hp]

theorem splitValue_exact {a r g : ℚ} {cap cap' : Option ℚ}
    (onGrid : a ∈ Grid ((10 : ℚ) ^ (-4 : ℤ))) (nonneg : 0 ≤ a) (small : a < 10 ^ 9)
    (hr : r ∈ Grid ((10 : ℚ) ^ (-4 : ℤ))) (rSmall : |r| < 10 ^ 23)
    (hg : g ∈ Grid ((10 : ℚ) ^ (-4 : ℤ))) (gSmall : |g| < 10 ^ 23)
    (hc : ∀ c ∈ cap, c ∈ Grid ((10 : ℚ) ^ (-4 : ℤ)) ∧ 0 ≤ c)
    (hc' : ∀ c ∈ cap', c ∈ Grid ((10 : ℚ) ^ (-4 : ℤ)) ∧ 0 ≤ c) :
    splitValue a r cap g cap' =
      (a - cappedPart r cap (shareValue a (1 / 4)) - cappedPart g cap' (shareValue a (3 / 20)),
        cappedPart r cap (shareValue a (1 / 4)), cappedPart g cap' (shareValue a (3 / 20))) := by
  have resGrid := shareValue_grid a (1 / 4)
  have grGrid := shareValue_grid a (3 / 20)
  have resNonneg := shareValue_nonneg (p := 1 / 4) nonneg (by norm_num)
  have grNonneg := shareValue_nonneg (p := 3 / 20) nonneg (by norm_num)
  obtain ⟨_, nearRes, nearGr⟩ := shares_near nonneg (by linarith)
  have res := abs_le.mp nearRes
  have gr := abs_le.mp nearGr
  have partGrid := cappedPart_grid hr resGrid fun c mem => (hc c mem).1
  have partGrid' := cappedPart_grid hg grGrid fun c mem => (hc' c mem).1
  have partLow := le_cappedPart (fun c mem => (hc c mem).2) resNonneg rSmall
  have partHigh := cappedPart_le r (shareValue a (1 / 4)) cap
  have baseGrid := grid_sub (grid_sub onGrid resGrid) grGrid
  have rolled := rollValue_exact (o := a - shareValue a (1 / 4) - shareValue a (3 / 20)) hr
    baseGrid resGrid hc rSmall (by rw [abs_lt]; constructor <;> linarith) resNonneg (by linarith)
  have opGrid := grid_add baseGrid (grid_sub resGrid partGrid)
  have rolled' := rollValue_exact hg opGrid grGrid hc' gSmall
    (by rw [abs_lt]; constructor <;> linarith) grNonneg (by linarith)
  simp only [splitValue, baseValue_exact onGrid nonneg small, rolled, rolled']
  rw [toPlaces_money (grid_add opGrid (grid_sub grGrid partGrid')), toPlaces_money partGrid,
    toPlaces_money partGrid']
  congr 1
  ring

theorem rollValue_raises {o : ℚ} (r p : ℚ) (cap : Option ℚ) (rep : o ∈ defaultContext.Representable) :
    o ≤ (rollValue r cap o p).1 ∧ (rollValue r cap o p).1 ∈ defaultContext.Representable := by
  cases cap with
  | none => exact ⟨le_refl o, rep⟩
  | some c =>
    simp only [rollValue]
    split
    · rename_i exceeds
      have overflow := defaultContext.rounding.le_round zero_representable (sub_pos.mpr exceeds).le
      constructor
      · apply defaultContext.rounding.le_round rep
        change 0 ≤ defaultContext.round _ at overflow
        linarith
      · exact defaultContext.round_mem _
    · exact ⟨le_refl o, rep⟩

/- Quantizing Operating's share bounds the amount, and then Operating's part is
   large unless the amount is small. -/
theorem amount_small {a r g : ℚ} {cap cap' : Option ℚ} (nonneg : 0 ≤ a)
    (shared : |shareValue a (3 / 5)| < 10 ^ 24)
    (credited : (splitValue a r cap g cap').1 < 10 ^ 8) : a < 2 * 10 ^ 8 := by
  have bounded : a * (3 / 5) < 2 * 10 ^ 24 := by
    by_contra large
    have rep : (2 * 10 ^ 24 : ℚ) ∈ defaultContext.Representable :=
      ⟨2, 24, by decide, by decide, by norm_num⟩
    have rounded := defaultContext.rounding.le_round rep (not_lt.mp large)
    have near := abs_le.mp (toPlaces_near (defaultContext.round (a * (3 / 5))))
    have low := (abs_lt.mp shared).2
    change 2 * 10 ^ 24 ≤ defaultContext.round (a * (3 / 5)) at rounded
    unfold shareValue at low
    linarith
  have base := baseValue_near nonneg (by linarith)
  have start : baseValue a ∈ defaultContext.Representable := defaultContext.round_mem _
  obtain ⟨up, rep⟩ := rollValue_raises r (shareValue a (1 / 4)) cap start
  obtain ⟨up', _⟩ := rollValue_raises g (shareValue a (3 / 20)) cap' rep
  have near := abs_le.mp (toPlaces_near (rollValue g cap' (rollValue r cap (baseValue a)
    (shareValue a (1 / 4))).1 (shareValue a (3 / 20))).1)
  simp only [splitValue] at credited
  linarith

def Gained (rows t : Ledger) (pot : Pot) (q : ℚ) : Prop :=
  ∀ p, reported t p =
    if pot = p ∧ 0 < q then defaultContext.round (reported rows p + q) else reported rows p

def SplitRecorded (rows t : Ledger) (s : ℚ × ℚ × ℚ) : Prop :=
  ∃ t₁ t₂, Gained rows t₁ .operating s.1 ∧ Gained t₁ t₂ .reserve s.2.1 ∧
    Gained t₂ t .growth s.2.2

section Calls
variable (P : Platform) (svc : CashflowService) {rows : Ledger}

theorem credit_gains {pot : Pot} {amountUsd : Decimal} {q : ℚ} (source : CashflowSource)
    (refId : Option String) (note : String) (has : amountUsd.HasValue q) :
    Ensures (credit P svc pot amountUsd source refId note) rows
      (fun _ t => Gained rows t pot q ∧ 0 < q ∧ q < 10 ^ 8) (fun _ _ => True) := by
  apply ensures_mono (credit_spec P svc rows pot source refId note amountUsd) _ fun _ _ _ => trivial
  rintro entry _ ⟨fields, pos, adm, rfl⟩
  have value : entry.delta.toRat = q := HasValue.unique ⟨_, fields.delta, rfl⟩ has
  have small := (abs_lt.mp (field_small adm.fits)).2
  rw [value] at pos small
  refine ⟨?_, pos, small⟩
  intro p
  have ofPot : (svc.row entry).pot = pot := fields.pot
  by_cases same : pot = p
  · rw [append, reported_append_same rows (ofPot.trans same), if_pos ⟨same, pos⟩]
    exact congrArg (fun d => defaultContext.round (reported rows p + d)) value
  · rw [append, reported_append_other rows (ofPot.trans_ne same), if_neg fun both => same both.1]

theorem creditPositive_gains {pot : Pot} {part : Decimal} {q : ℚ} (source : CashflowSource)
    (refId : Option String) (opEntry : CashflowEntry) (has : part.HasValue q) :
    Ensures (creditPositive P svc pot part source refId opEntry) rows
      (fun _ t => Gained rows t pot q) (fun _ _ => True) := by
  apply ensures_bind
  rw [lt_hasValue hasValue_zero has]
  apply ensures_attempt _ fun _ _ => trivial
  intro positive decided
  cases decided
  by_cases pos : 0 < q
  · rw [if_pos (decide_eq_true pos)]
    exact ensures_mono (credit_gains P svc source refId "" has) (fun _ _ gained => gained.1)
      fun _ _ _ => trivial
  · rw [if_neg (by simpa using pos)]
    apply ensures_pure
    intro p
    rw [if_neg fun both => pos both.2]

theorem splitAndRecordInflow_gains {amountUsd : Decimal} {reserveCap : Option Decimal}
    {trailing growthCap : Decimal} {a k : ℚ} {c : Option ℚ} (source : CashflowSource)
    (refId : Option String) (ha : amountUsd.HasValue a) (hc : CapValue reserveCap c)
    (capped : growthCapFromTrailingRevenue trailing = .ok growthCap) (hk : growthCap.HasValue k) :
    Ensures (splitAndRecordInflow P svc amountUsd source refId reserveCap trailing) rows
      (fun _ t => |shareValue a (3 / 5)| < 10 ^ 24 ∧
        (splitValue a (reported rows .reserve) c (reported rows .growth) (some k)).1 < 10 ^ 8 ∧
        0 < (splitValue a (reported rows .reserve) c (reported rows .growth) (some k)).1 ∧
        SplitRecorded rows t
          (splitValue a (reported rows .reserve) c (reported rows .growth) (some k)))
      (fun _ _ => True) := by
  apply ensures_bind
  apply ensures_snapshot
  intro snap report
  apply ensures_bind
  rw [capped]
  apply ensures_attempt _ fun _ _ => trivial
  intro growthCap' same
  cases same
  apply ensures_bind
  apply ensures_attempt _ fun _ _ => trivial
  intro s split
  have capValue : CapValue (some growthCap) (some k) := hk
  obtain ⟨hop, hres, hgr, shared⟩ :=
    splitInflow_value ha (report .reserve) hc (report .growth) capValue split
  apply ensures_bind
  apply ensures_mono (credit_gains P svc source refId "" hop) _ fun _ _ _ => trivial
  rintro opEntry t₁ ⟨gained, pos, small⟩
  apply ensures_bind
  apply ensures_mono (creditPositive_gains P svc source refId opEntry hres) _ fun _ _ _ => trivial
  intro resEntry t₂ gained'
  apply ensures_bind
  apply ensures_mono (creditPositive_gains P svc source refId opEntry hgr) _ fun _ _ _ => trivial
  intro grEntry t gained''
  exact ensures_pure ⟨shared, small, pos, t₁, t₂, gained, gained', gained''⟩

theorem splitAndRecordInflow_capRaises {amountUsd trailing : Decimal} {signal : Signal}
    (source : CashflowSource) (refId : Option String) (reserveCap : Option Decimal)
    (raised : growthCapFromTrailingRevenue trailing = .error signal) :
    Ensures (splitAndRecordInflow P svc amountUsd source refId reserveCap trailing) rows
      (fun _ _ => False) (fun _ _ => True) := by
  apply ensures_bind
  apply ensures_snapshot
  intro snap _
  apply ensures_bind
  rw [raised]
  exact ensures_throw trivial

end Calls

theorem growthCap_finite {x : FiniteDecimal} {cap : Decimal}
    (h : growthCapFromTrailingRevenue (.finite x) = .ok cap) :
    cap.HasValue (toPlaces (defaultContext.round (x.toRat * (3 / 10)))) := by
  obtain ⟨product, multiplied, quantized⟩ := ok_of_bind h
  have pct : growthCapPctOf90dRevenue.HasValue (3 / 10) := ⟨_, rfl, by decide +kernel⟩
  exact (quantize_value (mul_hasValue (hasValue_finite x) pct multiplied) quantized).1

/-- The cap of a revenue that is not negative is an amount of money. -/
theorem growthCap_value {trailing cap : Decimal}
    (nonneg : (Decimal.ofNat 0).le trailing = .ok true)
    (h : growthCapFromTrailingRevenue trailing = .ok cap) :
    ∃ k, cap.HasValue k ∧ k ∈ Grid ((10 : ℚ) ^ (-4 : ℤ)) ∧ 0 ≤ k := by
  rcases trailing with x | sign | ⟨signaling, sign, payload⟩
  · rw [le_hasValue hasValue_zero (hasValue_finite x)] at nonneg
    have sign : 0 ≤ x.toRat := of_decide_eq_true (Except.ok.inj nonneg)
    refine ⟨_, growthCap_finite h, toPlaces_grid _, toPlaces_nonneg ?_⟩
    exact defaultContext.rounding.le_round zero_representable (mul_nonneg sign (by norm_num))
  · cases h
  · cases nonneg

def totalReported (rows : Ledger) : ℚ :=
  reported rows .operating + reported rows .reserve + reported rows .growth

theorem gained_exact {rows t : Ledger} {pot : Pot} {q : ℚ} (gained : Gained rows t pot q)
    (onGrid : q ∈ Grid ((10 : ℚ) ^ (-4 : ℤ))) (fit : 0 < q → |reported rows pot + q| < 10 ^ 24) :
    reported t pot = reported rows pot + max q 0 := by
  rw [gained pot]
  by_cases pos : 0 < q
  · rw [if_pos ⟨rfl, pos⟩, max_eq_left pos.le]
    exact round_money (grid_add (reported_grid rows pot) onGrid) (fit pos)
  · rw [if_neg fun both => pos both.2, max_eq_right (not_lt.mp pos), add_zero]

theorem gained_other {rows t : Ledger} {pot p : Pot} {q : ℚ} (gained : Gained rows t pot q)
    (other : pot ≠ p) : reported t p = reported rows p := by
  rw [gained p, if_neg fun both => other both.1]

/- Recording drops the parts that are not positive. -/
theorem splitRecorded_total {rows t : Ledger} {s : ℚ × ℚ × ℚ} (recorded : SplitRecorded rows t s)
    (fit : PotsFit rows) (opGrid : s.1 ∈ Grid ((10 : ℚ) ^ (-4 : ℤ)))
    (resGrid : s.2.1 ∈ Grid ((10 : ℚ) ^ (-4 : ℤ))) (grGrid : s.2.2 ∈ Grid ((10 : ℚ) ^ (-4 : ℤ)))
    (opSmall : s.1 < 10 ^ 10) (resSmall : s.2.1 < 10 ^ 10) (grSmall : s.2.2 < 10 ^ 10) :
    totalReported t = totalReported rows + (max s.1 0 + max s.2.1 0 + max s.2.2 0) := by
  obtain ⟨t₁, t₂, op, res, gr⟩ := recorded
  have fits : ∀ p q, q < 10 ^ 10 → 0 < q → |reported rows p + q| < 10 ^ 24 := by
    intro p q small pos
    obtain ⟨low, high⟩ := abs_lt.mp (fit p)
    rw [abs_lt]
    constructor <;> linarith
  have operating : reported t .operating = reported rows .operating + max s.1 0 := by
    rw [gained_other gr (by decide), gained_other res (by decide)]
    exact gained_exact op opGrid (fits _ _ opSmall)
  have reserve : reported t .reserve = reported rows .reserve + max s.2.1 0 := by
    have start := gained_other op (p := .reserve) (by decide)
    rw [gained_other gr (by decide), gained_exact res resGrid (start ▸ fits _ _ resSmall), start]
  have growth : reported t .growth = reported rows .growth + max s.2.2 0 := by
    have start : reported t₂ .growth = reported rows .growth := by
      rw [gained_other res (by decide), gained_other op (by decide)]
    rw [gained_exact gr grGrid (start ▸ fits _ _ grSmall), start]
  unfold totalReported
  rw [operating, reserve, growth]
  ring

def WithinCaps (rows : Ledger) (reserveCap : Option FiniteDecimal) (trailing : Decimal) : Prop :=
  (∀ cap ∈ reserveCap, reported rows .reserve ≤ cap.toRat) ∧
  ∀ cap, growthCapFromTrailingRevenue trailing = .ok cap → ∀ k, cap.HasValue k →
    reported rows .growth ≤ k

theorem withinCaps_iff {rows : Ledger} {reserveCap : Option FiniteDecimal} {trailing cap : Decimal}
    {k p q : ℚ} (capped : growthCapFromTrailingRevenue trailing = .ok cap) (hk : cap.HasValue k)
    (hp : 0 ≤ p) (hq : 0 ≤ q) :
    WithinCaps rows reserveCap trailing ↔
      0 ≤ cappedPart (reported rows .reserve) (reserveCap.map FiniteDecimal.toRat) p ∧
      0 ≤ cappedPart (reported rows .growth) (some k) q := by
  rw [cappedPart_nonneg_iff hp, cappedPart_nonneg_iff hq]
  constructor
  · rintro ⟨reserve, growth⟩
    constructor
    · exact Option.forall_mem_map.mpr reserve
    · intro c mem
      cases mem
      exact growth cap capped k hk
  · rintro ⟨reserve, growth⟩
    constructor
    · exact Option.forall_mem_map.mp reserve
    · intro cap' capped' k' hk'
      rw [capped] at capped'
      cases capped'
      rw [hk'.unique hk]
      exact growth k rfl

/-- An inflow that returns raises the pots by its amount exactly when no pot
    was above its cap. -/
theorem inflow_conserved_iff (P : Platform) (svc : CashflowService) {rows : Ledger}
    (fit : PotsFit rows) {amount : FiniteDecimal} (positive : 0 < amount.toRat)
    (onGrid : amount.toRat ∈ Grid ((10 : ℚ) ^ (-4 : ℤ))) (reserveCap : Option FiniteDecimal)
    (caps : ∀ cap ∈ reserveCap, 0 ≤ cap.toRat ∧ cap.toRat ∈ Grid ((10 : ℚ) ^ (-4 : ℤ)))
    {trailing : Decimal} (nonneg : (Decimal.ofNat 0).le trailing = .ok true)
    (source : CashflowSource) (refId : Option String)
    (returns : (outcome (splitAndRecordInflow P svc (.finite amount) source refId
      (reserveCap.map .finite) trailing) rows).1.isOk = true) :
    totalReported (after (splitAndRecordInflow P svc (.finite amount) source refId
        (reserveCap.map .finite) trailing) rows) = totalReported rows + amount.toRat ↔
      WithinCaps rows reserveCap trailing := by
  have hc := capValue_finite reserveCap
  have hc' : ∀ c ∈ reserveCap.map FiniteDecimal.toRat, c ∈ Grid ((10 : ℚ) ^ (-4 : ℤ)) ∧ 0 ≤ c :=
    Option.forall_mem_map.mpr fun cap member => (caps cap member).symm
  unfold after
  rcases run : outcome (splitAndRecordInflow P svc (.finite amount) source refId
    (reserveCap.map .finite) trailing) rows with ⟨err | entries, t⟩
  · rw [run] at returns
    cases returns
  rcases capped : growthCapFromTrailingRevenue trailing with signal | cap
  · exact absurd (ensures_of_returns
      (splitAndRecordInflow_capRaises P svc source refId _ capped) run) id
  obtain ⟨k, hk, kGrid, kNonneg⟩ := growthCap_value nonneg capped
  obtain ⟨shared, small, pos, recorded⟩ := ensures_of_returns (splitAndRecordInflow_gains P svc
    source refId (hasValue_finite amount) hc capped hk) run
  have resNonneg := shareValue_nonneg (p := 1 / 4) positive.le (by norm_num)
  have grNonneg := shareValue_nonneg (p := 3 / 20) positive.le (by norm_num)
  have amountSmall := amount_small positive.le shared small
  have res := abs_le.mp (shareValue_near (a := amount.toRat) (p := 1 / 4)
    (by rw [abs_of_nonneg (by linarith)]; linarith))
  have gr := abs_le.mp (shareValue_near (a := amount.toRat) (p := 3 / 20)
    (by rw [abs_of_nonneg (by linarith)]; linarith))
  have growthCap : ∀ c ∈ some k, c ∈ Grid ((10 : ℚ) ^ (-4 : ℤ)) ∧ 0 ≤ c := by
    intro c mem
    cases mem
    exact ⟨kGrid, kNonneg⟩
  have resGrid := cappedPart_grid (reported_grid rows .reserve) (shareValue_grid amount.toRat (1 / 4))
    fun c mem => (hc' c mem).1
  have grGrid := cappedPart_grid (reported_grid rows .growth) (shareValue_grid amount.toRat (3 / 20))
    fun c mem => (growthCap c mem).1
  have resPart := cappedPart_le (reported rows .reserve) (shareValue amount.toRat (1 / 4))
    (reserveCap.map FiniteDecimal.toRat)
  have grPart := cappedPart_le (reported rows .growth) (shareValue amount.toRat (3 / 20)) (some k)
  rw [splitValue_exact onGrid positive.le (by linarith) (reported_grid _ _) (fit _)
    (reported_grid _ _) (fit _) hc' growthCap] at small pos recorded
  rw [splitRecorded_total recorded fit (grid_sub (grid_sub onGrid resGrid) grGrid) resGrid grGrid
    (by linarith) (by linarith) (by linarith), withinCaps_iff capped hk resNonneg grNonneg]
  dsimp only at pos ⊢
  rw [max_eq_left pos.le]
  constructor
  · intro conserved
    have res_le := le_max_left (cappedPart (reported rows .reserve)
      (reserveCap.map FiniteDecimal.toRat) (shareValue amount.toRat (1 / 4))) 0
    have gr_le := le_max_left (cappedPart (reported rows .growth) (some k)
      (shareValue amount.toRat (3 / 20))) 0
    constructor
    · exact max_eq_left_iff.mp (by linarith)
    · exact max_eq_left_iff.mp (by linarith)
  · rintro ⟨resKept, grKept⟩
    rw [max_eq_left resKept, max_eq_left grKept]
    ring

def growthSeed : Ledger :=
  run (step runnablePlatform motherService) [] [.credit .growth (.ofNat 290) .manualTopup none ""]

theorem inflow_conserved_below_cap :
    totalReported (after (splitAndRecordInflow runnablePlatform motherService
      (.finite (.ofNat 100)) .revenuePolar none none (.ofNat 1000)) growthSeed) =
      totalReported growthSeed + (FiniteDecimal.ofNat 100).toRat := by
  apply (inflow_conserved_iff runnablePlatform motherService (potsFit_of_length (by decide +kernel))
    (by decide +kernel) ⟨1000000, by decide +kernel⟩ none (by simp) rfl _ _
    (by decide +kernel)).mpr
  constructor
  · simp
  · intro cap capped k hk
    have atThirty : growthCapFromTrailingRevenue (.ofNat 1000) =
        .ok (.finite ⟨false, 3000000, -4⟩) := by decide +kernel
    rw [atThirty] at capped
    cases capped
    rw [hk.unique (hasValue_finite _)]
    decide +kernel

/-- With no trailing revenue the cap is zero: the same inflow raises the pots by 390. -/
theorem inflow_above_cap_gains :
    Reachable (step runnablePlatform motherService) [] growthSeed ∧
    (outcome (splitAndRecordInflow runnablePlatform motherService (.finite (.ofNat 100))
      .revenuePolar none none (.ofNat 0)) growthSeed).1.isOk = true ∧
    totalReported (after (splitAndRecordInflow runnablePlatform motherService
      (.finite (.ofNat 100)) .revenuePolar none none (.ofNat 0)) growthSeed) ≠
      totalReported growthSeed + (FiniteDecimal.ofNat 100).toRat :=
  ⟨⟨_, rfl⟩, by decide +kernel, by decide +kernel⟩

end CashflowLedger
