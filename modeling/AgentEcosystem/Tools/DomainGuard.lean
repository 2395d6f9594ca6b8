import AgentEcosystem.Text.Urls

/-!
The guard in front of the network: a URL passes if its host is in one of the
domains a tool may use. A URL without a host addresses no domain and passes too.
-/
namespace ToolRuntime
open UnicodeText

inductive DomainError where
  | valueError
  | domainNotAllowed (host : Text) (allowed : List Text)
  deriving DecidableEq, Repr

/-- `urlparse(url).hostname or ""` -/
def urlHost (data : UrlData) (url : Text) : Except UrlError Text :=
  (urlparse data url).map fun netloc => (hostname data.toStrData netloc).getD []

def enforceDomain (data : UrlData) (url : Text) (allowed : List Text) : Except DomainError Unit :=
  match urlHost data url with
  | .error _ => .error .valueError
  | .ok host =>
    if host ≠ [] && !(allowed.any fun d => inDomain host d) then
      .error (.domainNotAllowed host allowed)
    else .ok ()

/-- Equal to the domain, or below it: the labels end with all of its labels. -/
def Within (host domain : Text) : Prop := host = domain ∨ labels domain <:+ labels host

theorem within_iff {host domain : Text} : Within host domain ↔ inDomain host domain = true := by
  rw [inDomain_iff]
  constructor
  · rintro (rfl | below)
    · exact List.suffix_rfl
    · exact below
  · exact .inr

/-- The guard lets a URL with a host pass exactly if the host is within an allowed domain,
    and stops every other one; a URL without a host passes, and what cannot be
    parsed raises as the parser does. -/
theorem enforceDomain_iff (data : UrlData) (url : Text) (allowed : List Text) :
    (∀ host, urlHost data url = .ok host → host ≠ [] →
      (enforceDomain data url allowed = .ok () ↔ ∃ d ∈ allowed, Within host d) ∧
      ((¬ ∃ d ∈ allowed, Within host d) →
        enforceDomain data url allowed = .error (.domainNotAllowed host allowed))) ∧
    (urlHost data url = .ok [] → enforceDomain data url allowed = .ok ()) ∧
    (∀ err, urlHost data url = .error err →
      enforceDomain data url allowed = .error .valueError) := by
  refine ⟨?_, ?_, ?_⟩
  · intro host parsed nonempty
    have found : (allowed.any fun d => inDomain host d) = true ↔ ∃ d ∈ allowed, Within host d := by
      simp only [List.any_eq_true, within_iff]
    rw [← found]
    by_cases inside : (allowed.any fun d => inDomain host d) = true
    · simp [enforceDomain, parsed, inside]
    · simp [enforceDomain, parsed, inside, nonempty]
  · intro parsed
    simp [enforceDomain, parsed]
  · intro err failed
    simp [enforceDomain, failed]

/-- A file has no host, and its URL passes for a tool that may use one domain only. -/
theorem hostless_url_passes :
    urlHost asciiUrlData (text "file:///etc/passwd") = .ok [] ∧
      enforceDomain asciiUrlData (text "file:///etc/passwd") [text "api.polar.sh"] = .ok () := by
  decide

end ToolRuntime
