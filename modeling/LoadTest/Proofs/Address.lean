import LoadTest.Probe
import LoadTest.Proofs.Text.Blank

/-!
# LoadTest.Proofs.Address

Addresses under a base. **One slash stands between a base without the slashes at its end and a path without those at
its beginning** (`Under`), whatever their number was. What is left of a base still begins with its scheme if
something other than a slash follows the scheme (`hosted_trimBase_iff`).
-/

namespace LoadTest

open Text

/-! ### Slashes -/

/-- So many slashes. -/
def slashes (n : Nat) : String := String.ofList (List.replicate n '/')

@[simp] theorem toList_slashes (n : Nat) : (slashes n).toList = List.replicate n '/' := String.toList_ofList

theorem eq_slash_of_mem {n : Nat} : ∀ c ∈ List.replicate n '/', decide (c = '/') = true := by
  intro c mem
  exact decide_eq_true (List.eq_of_mem_replicate mem)

namespace Scenario

@[simp] theorem toList_trimBase (url : String) :
    (trimBase url).toList = dropEndWhile (· = '/') url.toList := String.toList_ofList

/-- Only slashes are taken off, and all of them. -/
theorem exists_slashes (url : String) : ∃ n, url = trimBase url ++ slashes n := by
  obtain ⟨after, hafter, heq⟩ := exists_dropEndWhile (fun c => decide (c = '/')) url.toList
  refine ⟨after.length, ?_⟩
  have hreplicate : after = List.replicate after.length '/' :=
    List.eq_replicate_iff.mpr ⟨rfl, fun c mem => of_decide_eq_true (hafter c mem)⟩
  rw [← String.toList_inj, String.toList_append, toList_slashes, toList_trimBase, ← hreplicate]
  exact heq

theorem last_trimBase (url : String) : ∀ c ∈ (trimBase url).toList.getLast?, c ≠ '/' := by
  intro c mem
  rw [toList_trimBase] at mem
  simpa using getLast?_dropEndWhile _ _ c mem

/-- The number of slashes at the end of a base makes no difference. -/
theorem trimBase_slashes (url : String) (n : Nat) : trimBase (url ++ slashes n) = trimBase url := by
  rw [← String.toList_inj, toList_trimBase, toList_trimBase, String.toList_append, toList_slashes,
    dropEndWhile_append eq_slash_of_mem]

theorem request_slashes (scenario : Scenario) (url : String) (n : Nat) (parameters : Parameters) :
    scenario.request (url ++ slashes n) parameters = scenario.request url parameters := by
  cases scenario <;> simp only [request, trimBase_slashes]

end Scenario

/-! ### Paths under a base -/

/-- **An address under a base:** the base without slashes at its end, one slash, and a path that does not begin
with another. -/
def Under (baseUrl url : String) : Prop :=
  ∃ path, url = Scenario.trimBase baseUrl ++ "/" ++ path ∧ ∀ c ∈ path.toList.head?, c ≠ '/'

theorem under_append (baseUrl : String) {first : String} (rest : String) (hne : first.toList ≠ [])
    (hhead : ∀ c ∈ first.toList.head?, c ≠ '/') :
    Under baseUrl (Scenario.trimBase baseUrl ++ "/" ++ (first ++ rest)) := by
  refine ⟨first ++ rest, rfl, ?_⟩
  rw [String.toList_append, List.head?_append_of_ne_nil _ hne]
  exact hhead

/-- What a scenario asks for is under its base. -/
theorem Scenario.under_request (scenario : Scenario) (baseUrl : String) (parameters : Parameters) :
    Under baseUrl (scenario.request baseUrl parameters).url := by
  cases scenario with
  | couponIssue =>
      have hurl : (Scenario.couponIssue.request baseUrl parameters).url
          = trimBase baseUrl ++ "/coupons/" ++ toString parameters.target ++ "/issue" := by
        unfold Scenario.request
        cases parameters.user? <;> rfl
      have hsplit : trimBase baseUrl ++ "/coupons/" ++ toString parameters.target ++ "/issue"
          = trimBase baseUrl ++ "/" ++ ("coupons/" ++ (toString parameters.target ++ "/issue")) := by
        simp [← String.toList_inj]
      rw [hurl, hsplit]
      exact under_append baseUrl _ (by decide) (by decide)
  | popularProducts threshold =>
      have hsplit : trimBase baseUrl ++ "/products/" ++ toString parameters.target
          = trimBase baseUrl ++ "/" ++ ("products/" ++ toString parameters.target) := by
        simp [← String.toList_inj]
      rw [Scenario.request, hsplit]
      exact under_append baseUrl _ (by decide) (by decide)

namespace Probe

theorem isAbsolute_iff {url : String} :
    isAbsolute url = true ↔ ∃ scheme ∈ ["http://", "https://"], ∃ rest, url = scheme ++ rest := by
  have hbegins (scheme : String) :
      scheme.toList.isPrefixOf url.toList = true ↔ ∃ rest, url = scheme ++ rest := by
    rw [List.isPrefixOf_iff_prefix]
    constructor
    · intro ⟨rest, hrest⟩
      exact ⟨String.ofList rest, by simp [← String.toList_inj, hrest]⟩
    · intro ⟨rest, hrest⟩
      exact ⟨rest.toList, by rw [hrest, String.toList_append]⟩
  rw [isAbsolute, Bool.or_eq_true, hbegins, hbegins]
  simp

theorem isAbsolute_append {url : String} (h : isAbsolute url = true) (rest : String) :
    isAbsolute (url ++ rest) = true := by
  obtain ⟨scheme, mem, host, rfl⟩ := isAbsolute_iff.mp h
  exact isAbsolute_iff.mpr ⟨scheme, mem, host ++ rest, String.append_assoc⟩

theorem joinUrl_of_relative (baseUrl : String) {path : String} (relative : isAbsolute path = false) :
    joinUrl baseUrl path
      = Scenario.trimBase baseUrl ++ "/" ++ String.ofList (path.toList.dropWhile (· = '/')) := by
  rw [joinUrl, relative]
  rfl

/-- A path of no scheme of its own is put under the base. -/
theorem under_joinUrl (baseUrl : String) {path : String} (relative : isAbsolute path = false) :
    Under baseUrl (joinUrl baseUrl path) := by
  refine ⟨String.ofList (path.toList.dropWhile (· = '/')), joinUrl_of_relative baseUrl relative, ?_⟩
  intro c mem
  rw [String.toList_ofList] at mem
  have hhead := List.head?_dropWhile_not (fun c => decide (c = '/')) path.toList
  rw [Option.mem_def.mp mem] at hhead
  simpa using hhead

theorem joinUrl_slashes (baseUrl path : String) (n : Nat) :
    joinUrl (baseUrl ++ slashes n) path = joinUrl baseUrl path := by
  rw [joinUrl, joinUrl, Scenario.trimBase_slashes]

/-- A path that begins with a slash has no scheme of its own. -/
theorem isAbsolute_slashes (path : String) (n : Nat) : isAbsolute (slashes (n + 1) ++ path) = false := by
  simp [isAbsolute, List.replicate_succ, List.isPrefixOf]

/-- The number of slashes at the beginning of a path makes no difference. -/
theorem joinUrl_leading (baseUrl : String) {path : String} (relative : isAbsolute path = false) (n : Nat) :
    joinUrl baseUrl (slashes n ++ path) = joinUrl baseUrl path := by
  have habsolute : isAbsolute (slashes n ++ path) = false := by
    cases n with
    | zero => simpa [isAbsolute] using relative
    | succ n => exact isAbsolute_slashes path n
  have hdrop : (slashes n ++ path).toList.dropWhile (· = '/') = path.toList.dropWhile (· = '/') := by
    rw [String.toList_append, toList_slashes, List.dropWhile_append_of_pos eq_slash_of_mem]
  rw [joinUrl_of_relative baseUrl habsolute, joinUrl_of_relative baseUrl relative, hdrop]

end Probe

/-! ### Hosts -/

/-- An address that names something after its scheme. -/
def Hosted (url : String) : Prop :=
  ∃ scheme ∈ ["http://", "https://"], ∃ host, url = scheme ++ host ∧ host ≠ ""

theorem Hosted.isAbsolute {url : String} (h : Hosted url) : Probe.isAbsolute url = true := by
  obtain ⟨scheme, mem, host, heq, -⟩ := h
  exact Probe.isAbsolute_iff.mpr ⟨scheme, mem, host, heq⟩

/-- An address with something other than slashes after its scheme. -/
def NamesHost (url : String) : Prop :=
  ∃ scheme ∈ ["http://", "https://"], ∃ rest, url = scheme ++ rest ∧ ∃ c ∈ rest.toList, c ≠ '/'

/-- A base without the slashes at its end still names what follows the scheme if that is not slashes alone. -/
theorem hosted_trimBase_iff (url : String) : Hosted (Scenario.trimBase url) ↔ NamesHost url := by
  constructor
  · intro ⟨scheme, mem, host, heq, hne⟩
    obtain ⟨n, hurl⟩ := Scenario.exists_slashes url
    have hlist : host.toList ≠ [] := by simpa using hne
    have hlast : host.toList.getLast? = some (host.toList.getLast hlist) := List.getLast?_eq_some_getLast hlist
    refine ⟨scheme, mem, host ++ slashes n, ?_, host.toList.getLast hlist, ?_, ?_⟩
    · rw [hurl, heq, String.append_assoc]
    · rw [String.toList_append]
      exact List.mem_append_left _ (List.getLast_mem hlist)
    · refine Scenario.last_trimBase url _ ?_
      rw [heq, String.toList_append, List.getLast?_append_of_ne_nil _ hlist]
      exact hlast
  · intro ⟨scheme, mem, rest, heq, c, hc, hslash⟩
    obtain ⟨htrim, hstays⟩ :=
      dropEndWhile_append_of_mem (p := fun c => decide (c = '/')) hc (decide_eq_false hslash) scheme.toList
    refine ⟨scheme, mem, Scenario.trimBase rest, ?_, ?_⟩
    · rw [← String.toList_inj, heq]
      simpa using htrim
    · intro hempty
      rw [← Scenario.toList_trimBase, hempty] at hstays
      cases hstays

/-- Where there are only slashes after the scheme, its own slashes are taken off too. -/
theorem trimBase_of_not_hosted {url : String} (absolute : Probe.isAbsolute url = true)
    (h : ¬ Hosted (Scenario.trimBase url)) : Scenario.trimBase url ∈ ["http:", "https:"] := by
  obtain ⟨scheme, mem, rest, rfl⟩ := Probe.isAbsolute_iff.mp absolute
  have hslashes : ∀ c ∈ rest.toList, c = '/' := by
    intro c hc
    by_contra hne
    exact h ((hosted_trimBase_iff _).mpr ⟨scheme, mem, rest, rfl, c, hc, hne⟩)
  have hrest : rest = slashes rest.toList.length := by
    rw [← String.toList_inj, toList_slashes]
    exact List.eq_replicate_iff.mpr ⟨rfl, hslashes⟩
  rw [hrest, Scenario.trimBase_slashes]
  have hbare : ∀ scheme ∈ ["http://", "https://"], Scenario.trimBase scheme ∈ ["http:", "https:"] := by decide
  exact hbare scheme mem

end LoadTest
