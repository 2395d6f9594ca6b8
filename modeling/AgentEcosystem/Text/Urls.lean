import AgentEcosystem.Text.Tokens

/-!
The host of a URL, as `urllib.parse` finds it, and domain names as labels between
dots.
-/
namespace UnicodeText

inductive UrlError where
  | invalidUrl
  deriving DecidableEq, Repr

/-- What the library checks of a network location besides that its brackets match.
    This depends on its release and on the Unicode tables. -/
structure UrlData extends StrData where
  acceptsNetloc : Text → Bool

/-- Leading control characters and blanks are dropped, tabs and line ends everywhere. -/
def sanitized (url : Text) : Text :=
  (url.dropWhile fun c => decide (c.val ≤ 0x20)).filter
    fun c => c ∉ [ofChar '\t', ofChar '\r', ofChar '\n']

def isAsciiLetter (c : CodePoint) : Bool :=
  (0x41 ≤ c.val && c.val ≤ 0x5A) || (0x61 ≤ c.val && c.val ≤ 0x7A)

def isSchemeChar (c : CodePoint) : Bool :=
  isAsciiLetter c || isAsciiDigit c || c ∈ [ofChar '+', ofChar '-', ofChar '.']

/-- The URL behind its scheme; what does not look like a scheme stays. -/
def dropScheme (url : Text) : Text :=
  let before := url.takeWhile (· ≠ ofChar ':')
  match url.dropWhile (· ≠ ofChar ':') with
  | [] => url
  | _ :: after => if before.head?.any isAsciiLetter && before.all isSchemeChar then after else url

/-- What stands between two slashes and the path, the query or the fragment. -/
def netlocOf (url : Text) : Text :=
  match dropScheme (sanitized url) with
  | a :: b :: rest =>
    if a = ofChar '/' ∧ b = ofChar '/' then
      rest.takeWhile fun c => c ∉ [ofChar '/', ofChar '?', ofChar '#']
    else []
  | _ => []

/-- `urlparse(url).netloc` -/
def urlparse (data : UrlData) (url : Text) : Except UrlError Text :=
  let netloc := netlocOf url
  if decide (ofChar '[' ∈ netloc) = decide (ofChar ']' ∈ netloc) ∧ data.acceptsNetloc netloc = true then
    .ok netloc
  else .error .invalidUrl

/-- The host without its user and its port; in brackets it may hold colons. -/
def hostinfo (netloc : Text) : Text :=
  let behindUser := netloc.rtakeWhile (· ≠ ofChar '@')
  match behindUser.dropWhile (· ≠ ofChar '[') with
  | [] => behindUser.takeWhile (· ≠ ofChar ':')
  | _ :: bracketed => bracketed.takeWhile (· ≠ ofChar ']')

/-- `.hostname`: in lower case, but for the zone of a scoped address. -/
def hostname (data : StrData) (netloc : Text) : Option Text :=
  let host := hostinfo netloc
  if host = [] then none
  else some (data.lower (host.takeWhile (· ≠ ofChar '%')) ++ host.dropWhile (· ≠ ofChar '%'))

/-- The ASCII database; every network location is accepted. -/
def asciiUrlData : UrlData := { asciiStrData with acceptsNetloc := fun _ => true }

example : ["https://api.polar.sh/v1", "HTTP://user@API.polar.sh:443?q", "//[::1]:80/x",
      "mailto:a@b", "https:api.polar.sh", "https:///v1"].map
    (fun url => hostname asciiStrData (netlocOf (text url))) =
    [some (text "api.polar.sh"), some (text "api.polar.sh"), some (text "::1"), none, none, none] := by
  decide

def labels (domain : Text) : List Text := domain.splitOn (ofChar '.')

def inDomain (host domain : Text) : Bool :=
  host == domain || (ofChar '.' :: domain).isSuffixOf host

theorem intercalate_append {α : Type} {sep : List α} {xs ys : List (List α)} (some_x : xs ≠ [])
    (some_y : ys ≠ []) :
    sep.intercalate (xs ++ ys) = sep.intercalate xs ++ sep ++ sep.intercalate ys := by
  induction xs with
  | nil => exact absurd rfl some_x
  | cons x xs ih =>
    cases xs with
    | nil => simp [List.intercalate_cons_of_ne_nil some_y]
    | cons x' xs =>
      have later := ih (List.cons_ne_nil x' xs)
      rw [List.cons_append, List.intercalate_cons_of_ne_nil (by simp), later,
        List.intercalate_cons_cons]
      simp

/-- A host is in a domain exactly if its labels end with those of the domain. -/
theorem inDomain_iff {host domain : Text} :
    inDomain host domain = true ↔ labels domain <:+ labels host := by
  simp only [inDomain, Bool.or_eq_true, beq_iff_eq, List.isSuffixOf_iff_suffix]
  constructor
  · rintro (rfl | ⟨front, rfl⟩)
    · exact List.suffix_rfl
    · unfold labels
      rw [List.splitOn_append_cons_self]
      exact List.suffix_append _ _
  · rintro ⟨front, split⟩
    have joined : ∀ t : Text, [ofChar '.'].intercalate (t.splitOn (ofChar '.')) = t :=
      fun t => List.intercalate_splitOn _
    have whole := joined host
    have part := joined domain
    unfold labels at split
    rw [← split] at whole
    cases front with
    | nil =>
      rw [List.nil_append, part] at whole
      exact .inl whole.symm
    | cons x xs =>
      rw [intercalate_append (by simp) (List.splitOn_ne_nil _ _), part] at whole
      refine .inr ⟨[ofChar '.'].intercalate (x :: xs), ?_⟩
      rw [← whole]
      simp

end UnicodeText
