import CreatidyKernel.Intake.Discovery
import CreatidyKernel.Lib.Delimited

set_option relaxedAutoImplicit false
set_option autoImplicit false

/-!
# Complete listings of dependencies

A scan ends well exactly when the pages of the server list fully identified issues, each of them
once, and are closed by an empty page within the bound. An observation is complete exactly when
both of its scans list the same issues and the clock stayed in the freshness window.

## Main definitions

* `Intake.Discovery.Identifies` — an entry of a page names a native issue in full.
* `Intake.Discovery.Listing`, `Intake.Discovery.Lists` — the pages of a complete scan.
* `Intake.Discovery.Stable` — what a complete observation is.

## Main results

* `Intake.Discovery.scan_eq_observed` — a scan ends well exactly when its pages list the issues.
* `Intake.Discovery.read_dependencies_exact` — evidence is complete exactly when it is stable.
-/

namespace CreatidyKernel

namespace Intake

open Checked Delimited

/-! ## Identified issues -/

section

variable {α β : Type} {R : α → β → Prop}

/-- What two lists have one by one is cut where the first one is. -/
theorem forall₂_append_left : ∀ {l l' : List α} {r : List β}, (l ++ l').Forall₂ R r →
    ∃ s s', r = s ++ s' ∧ l.Forall₂ R s ∧ l'.Forall₂ R s'
  | [], _, r, h => ⟨[], r, rfl, .nil, h⟩
  | a :: l, l', _, h => by
    obtain ⟨b, r, hab, hall, rfl⟩ := List.forall₂_cons_left_iff.mp h
    obtain ⟨s, s', rfl, hs, hs'⟩ := forall₂_append_left hall
    exact ⟨b :: s, s', rfl, .cons hab hs, hs'⟩

/-- Each element of the second list has one of the first. -/
theorem exists_of_forall₂_right : ∀ {l : List α} {r : List β}, l.Forall₂ R r →
    ∀ {b : β}, b ∈ r → ∃ a ∈ l, R a b
  | _, _, .cons (a := a) hab h, b, hb => by
    rcases List.mem_cons.mp hb with rfl | hb
    · exact ⟨a, by simp, hab⟩
    · obtain ⟨a', ha', hr⟩ := exists_of_forall₂_right h hb
      exact ⟨a', by simp [ha'], hr⟩

end

namespace Discovery

variable [Sha256]

omit [Sha256] in
/-- The digits of a number hold no slash. -/
theorem slash_notMem_digits (n : ℕ) : '/' ∉ Nat.toDigits 10 n := by
  intro hmem
  have hdigit : '/'.isDigit = true :=
    Nat.isDigit_of_mem_toDigits (b := 10) (by omega) (by omega) hmem
  exact absurd hdigit (by decide)

/-- The path of an issue: an owner and a name without slashes, and the number. -/
def issuePath (owner name : List Char) (number : ℕ) : List Char :=
  '/' :: owner ++ '/' :: name ++ "/issues/".toList ++ (toString number).toList

omit [Sha256] in
theorem repositoryIn_eq_ok {path : List Char} {number : ℕ} {repository : String} :
    repositoryIn path number = .ok repository ↔ ∃ owner name, '/' ∉ owner ∧ '/' ∉ name ∧
      path = issuePath owner name number ∧ repository = String.ofList (owner ++ '/' :: name) := by
  have hparts (owner name : List Char) : issuePath owner name number =
      ['/'].intercalate [[], owner, name, "issues".toList, (toString number).toList] := by
    simp [issuePath, List.intercalate_cons_cons]
  constructor
  · intro h
    unfold repositoryIn at h
    split at h
    · rename_i owner name kind index hsplit
      obtain ⟨⟨rfl, rfl⟩, hr⟩ := check_bind_eq_ok.mp h
      have hfree : ∀ part ∈ path.splitOn '/', '/' ∉ part := notMem_splitOn
      rw [hsplit] at hfree
      refine ⟨owner, name, hfree _ (by simp), hfree _ (by simp), ?_, ?_⟩
      · rw [hparts, ← hsplit, List.intercalate_splitOn]
      · simpa [pure, Except.pure] using hr.symm
    · simp at h
  · rintro ⟨owner, name, howner, hname, rfl, rfl⟩
    have hsplit : (issuePath owner name number).splitOn '/' =
        [[], owner, name, "issues".toList, (toString number).toList] := by
      rw [hparts]
      refine List.splitOn_intercalate '/' ?_ (by simp)
      simp [howner, hname, slash_notMem_digits number]
    simp [repositoryIn, hsplit, check, pure, Except.pure]

/-- A value names a native issue in full: it has every field, is no pull request, and its URL is
the one of the issue under the configured origin. -/
structure Identifies (d : Discovery) (dependencies : Bool) (value : Json) (i : NativeIssue) :
    Prop where
  number : getField value "number" = .int i.number
  positive : 0 < i.number
  noPull : getField value "pull_request" = .null
  state : getField value "state" = .str i.state
  states : i.state = "open" ∨ i.state = "closed"
  title : getField value "title" = .str i.title
  body : getField value "body" = .str i.body
  updatedAt : getField value "updated_at" = .str i.updatedAt
  titled : i.title ≠ ""
  dated : i.updatedAt ≠ ""
  origin : i.origin = d.origin
  content : i.contentDigest = digest (.obj [("body", .str i.body), ("title", .str i.title)])
  url : ∃ htmlUrl netloc owner name, getField value "html_url" = .str htmlUrl ∧
    urlsplit htmlUrl = ⟨"https".toList, netloc, issuePath owner name i.number, [], []⟩ ∧
    '@' ∉ netloc ∧ "https://".toList ++ netloc = d.origin.toList ∧
    '/' ∉ owner ∧ '/' ∉ name ∧ i.repository = String.ofList (owner ++ '/' :: name)
  within : dependencies = true ∨ i.repository = d.repository

omit [Sha256] in
theorem textField_eq_ok {value : Json} {name s : String} :
    textField value name = .ok s ↔ getField value name = .str s := by
  unfold textField
  split <;> simp_all

omit [Sha256] in
theorem numberField_eq_ok {value : Json} {name : String} {n : ℕ} :
    numberField value name = .ok n ↔ getField value name = .int n ∧ 0 < n := by
  unfold numberField
  split
  · rename_i m hm
    rw [hm]
    split
    · simp only [Except.ok.injEq, Json.int.injEq]
      omega
    · simp only [reduceCtorEq, Json.int.injEq, false_iff, not_and]
      omega
  · rename_i hne
    simp only [reduceCtorEq, false_iff, not_and]
    intro h
    exact absurd h (hne n)

/-- A value is read as an issue exactly when it names it in full. -/
theorem issue_eq_ok {d : Discovery} {dependencies : Bool} {value : Json} {i : NativeIssue} :
    d.issue dependencies value = .ok i ↔ d.Identifies dependencies value i := by
  constructor
  · intro h
    obtain ⟨number, hnumber, h⟩ := bind_eq_ok.mp h
    obtain ⟨hpull, h⟩ := check_bind_eq_ok.mp h
    obtain ⟨state, hstate, h⟩ := bind_eq_ok.mp h
    obtain ⟨hstates, h⟩ := check_bind_eq_ok.mp h
    obtain ⟨title, htitle, h⟩ := bind_eq_ok.mp h
    obtain ⟨body, hbody, h⟩ := bind_eq_ok.mp h
    obtain ⟨updatedAt, hupdated, h⟩ := bind_eq_ok.mp h
    obtain ⟨htmlUrl, hurl, h⟩ := bind_eq_ok.mp h
    obtain ⟨⟨htitled, hdated⟩, h⟩ := check_bind_eq_ok.mp h
    obtain ⟨⟨hscheme, huser, hquery, hfragment, horigin⟩, h⟩ := check_bind_eq_ok.mp h
    obtain ⟨repository, hrepository, h⟩ := bind_eq_ok.mp h
    obtain ⟨hwithin, h⟩ := check_bind_eq_ok.mp h
    obtain rfl : _ = i := by simpa [pure, Except.pure] using h
    obtain ⟨hnumber, hpos⟩ := numberField_eq_ok.mp hnumber
    obtain ⟨owner, name, howner, hname, hpath, rfl⟩ := repositoryIn_eq_ok.mp hrepository
    rw [hscheme] at horigin
    refine ⟨hnumber, hpos, hpull, textField_eq_ok.mp hstate, hstates, textField_eq_ok.mp htitle,
      textField_eq_ok.mp hbody, textField_eq_ok.mp hupdated, htitled, hdated, rfl, rfl,
      ⟨htmlUrl, (urlsplit htmlUrl).netloc, owner, name, textField_eq_ok.mp hurl, ?_, huser,
        by simpa using horigin, howner, hname, rfl⟩, hwithin⟩
    calc urlsplit htmlUrl
        = ⟨(urlsplit htmlUrl).scheme, (urlsplit htmlUrl).netloc, (urlsplit htmlUrl).path,
            (urlsplit htmlUrl).query, (urlsplit htmlUrl).fragment⟩ := rfl
      _ = _ := by rw [hscheme, hpath, hquery, hfragment]
  · rintro ⟨hnumber, hpos, hpull, hstate, hstates, htitle, hbody, hupdated, htitled, hdated,
      horigin, hcontent, ⟨htmlUrl, netloc, owner, name, hurl, hsplit, huser, hnetloc, howner,
        hname, hrepository⟩, hwithin⟩
    have hread : repositoryIn (issuePath owner name i.number) i.number = .ok i.repository :=
      repositoryIn_eq_ok.mpr ⟨owner, name, howner, hname, rfl, hrepository⟩
    refine bind_of_ok (numberField_eq_ok.mpr ⟨hnumber, hpos⟩) <| check_bind_eq_ok.mpr ⟨hpull, ?_⟩
    refine bind_of_ok (textField_eq_ok.mpr hstate) <| check_bind_eq_ok.mpr ⟨hstates, ?_⟩
    refine bind_of_ok (textField_eq_ok.mpr htitle) <| bind_of_ok (textField_eq_ok.mpr hbody) ?_
    refine bind_of_ok (textField_eq_ok.mpr hupdated) <| bind_of_ok (textField_eq_ok.mpr hurl) ?_
    refine check_bind_eq_ok.mpr ⟨⟨htitled, hdated⟩, check_bind_eq_ok.mpr ⟨?_, ?_⟩⟩
    · rw [hsplit]
      exact ⟨rfl, huser, rfl, rfl, by simpa using hnetloc⟩
    · rw [hsplit]
      refine bind_of_ok hread <| check_bind_eq_ok.mpr ⟨hwithin, ?_⟩
      rw [← horigin, ← hcontent]
      rfl

/-! ## Pages -/

/-- From one page on, a server gives pages of at least one entry and at most as many as were asked
for, and then an empty one. -/
def Listing (d : Discovery) (server : String → Answer) (path : String) :
    ℕ → List (List Json) → Prop
  | page, [] => server (d.pagePath path page) = .answered 200 (.arr [])
  | page, entries :: rest => server (d.pagePath path page) = .answered 200 (.arr entries) ∧
      entries ≠ [] ∧ entries.length ≤ d.pageSize ∧ Listing d server path (page + 1) rest

/-- The entries of some pages identify some issues, one by one, and none of them twice. -/
def Names (d : Discovery) (dependencies : Bool) (entries : List Json)
    (issues : List NativeIssue) : Prop :=
  entries.Forall₂ (d.Identifies dependencies) issues ∧ (issues.map NativeIssue.identity).Nodup

/-- The pages of a server within the bound list some issues. -/
def Lists (d : Discovery) (server : String → Answer) (path : String) (dependencies : Bool)
    (issues : List NativeIssue) : Prop :=
  ∃ pages, d.Listing server path 1 pages ∧ pages.length < d.maxPages ∧
    d.Names dependencies pages.flatten issues

/-- Issues without repeated identities, all under the origin of the reader. -/
structure Found (d : Discovery) (issues : List NativeIssue) : Prop where
  nodup : (issues.map NativeIssue.identity).Nodup
  positive : ∀ i ∈ issues, 0 < i.number
  origin : ∀ i ∈ issues, i.origin = d.origin

/-- One more issue that was not found yet. -/
theorem Found.concat {d : Discovery} {dependencies : Bool} {value : Json}
    {issues : List NativeIssue} {i : NativeIssue} (h : d.Found issues)
    (hi : d.Identifies dependencies value i)
    (hnew : i.identity ∉ issues.map NativeIssue.identity) : d.Found (issues ++ [i]) := by
  have hne : ∀ j ∈ issues, j.identity ≠ i.identity := fun j hj heq =>
    hnew (heq ▸ List.mem_map_of_mem hj)
  refine ⟨?_, ?_, ?_⟩
  · rw [List.map_append, List.nodup_append]
    simpa [h.nodup] using hne
  · simpa [or_imp, forall_and, hi.positive] using h.positive
  · simpa [or_imp, forall_and, hi.origin] using h.origin

omit [Sha256] in
/-- The first of some issues. -/
theorem Found.of_append {d : Discovery} {issues rest : List NativeIssue}
    (h : d.Found (issues ++ rest)) : d.Found issues where
  nodup := by
    have hnodup := h.nodup
    rw [List.map_append, List.nodup_append] at hnodup
    exact hnodup.1
  positive i hi := h.positive i (List.mem_append_left _ hi)
  origin i hi := h.origin i (List.mem_append_left _ hi)

/-- The issues some entries name. -/
theorem found_of_names {d : Discovery} {dependencies : Bool} {entries : List Json}
    {issues : List NativeIssue} (h : d.Names dependencies entries issues) : d.Found issues := by
  have hnamed : ∀ i ∈ issues, ∃ value, d.Identifies dependencies value i := by
    intro i hi
    obtain ⟨value, -, hvalue⟩ := exists_of_forall₂_right h.1 hi
    exact ⟨value, hvalue⟩
  refine ⟨h.2, fun i hi => ?_, fun i hi => ?_⟩
  · exact (hnamed i hi).choose_spec.positive
  · exact (hnamed i hi).choose_spec.origin

/-- Reading the entries of a page keeps what was found apart. -/
theorem Found.enter {d : Discovery} {dependencies : Bool} :
    ∀ {found : List NativeIssue} {entries : List Json}, d.Found found →
      d.Found (d.enter dependencies found entries).1
  | found, [], h => h
  | found, entry :: rest, h => by
    unfold Discovery.enter
    split
    · exact h
    · rename_i i hi
      split
      · exact h
      · rename_i hnew
        exact Found.enter (h.concat (issue_eq_ok.mp hi) hnew)

/-- The entries of a page are all read exactly when they identify new issues one by one. -/
theorem enter_eq_none {d : Discovery} {dependencies : Bool} {result : List NativeIssue} :
    ∀ {found : List NativeIssue} {entries : List Json}, d.Found found →
      (d.enter dependencies found entries = (result, none) ↔ ∃ issues,
        result = found ++ issues ∧ entries.Forall₂ (d.Identifies dependencies) issues ∧
          d.Found (found ++ issues))
  | found, [], h => by
    simp only [enter, Prod.mk.injEq, and_true, List.forall₂_nil_left_iff]
    constructor
    · rintro rfl
      exact ⟨[], by simp, rfl, by simpa using h⟩
    · rintro ⟨_, hr, rfl, -⟩
      simpa using hr.symm
  | found, entry :: rest, h => by
    unfold enter
    split
    · rename_i failure herror
      simp only [Prod.mk.injEq, reduceCtorEq, and_false, false_iff, not_exists]
      rintro issues ⟨-, hall, -⟩
      obtain ⟨i, _, hi, -, -⟩ := List.forall₂_cons_left_iff.mp hall
      rw [issue_eq_ok.mpr hi] at herror
      cases herror
    · rename_i i hi
      have hread := issue_eq_ok.mp hi
      split
      · rename_i hold
        simp only [Prod.mk.injEq, reduceCtorEq, and_false, false_iff, not_exists]
        rintro issues ⟨-, hall, hfound⟩
        obtain ⟨j, _, hj, -, rfl⟩ := List.forall₂_cons_left_iff.mp hall
        obtain rfl : i = j := by
          have := (issue_eq_ok.mpr hj).symm.trans hi
          simpa using this.symm
        have hnodup := hfound.nodup
        rw [List.map_append, List.nodup_append] at hnodup
        exact hnodup.2.2 _ hold _ (by simp) rfl
      · rename_i hnew
        rw [enter_eq_none (h.concat hread hnew)]
        constructor
        · rintro ⟨issues, rfl, hall, hfound⟩
          exact ⟨i :: issues, by simp, .cons hread hall, by simpa using hfound⟩
        · rintro ⟨issues, rfl, hall, hfound⟩
          obtain ⟨j, js, hj, hall, rfl⟩ := List.forall₂_cons_left_iff.mp hall
          obtain rfl : i = j := by
            have := (issue_eq_ok.mpr hj).symm.trans hi
            simpa using this.symm
          exact ⟨js, by simp, by simp_all, by simpa using hfound⟩

/-- A page is never the reason a scan ends well. -/
theorem enter_ne_observed {d : Discovery} {dependencies : Bool} {result : List NativeIssue} :
    ∀ {found : List NativeIssue} {entries : List Json},
      d.enter dependencies found entries ≠ (result, some .observed)
  | found, [] => by simp [enter]
  | found, entry :: rest => by
    unfold enter
    split
    · cases dependencies <;> simp
    · split
      · simp
      · exact enter_ne_observed

/-! ## Scans -/

/-- How a scan goes on from one of its pages. -/
inductive Turn (d : Discovery) (server : String → Answer) (path : String) (dependencies : Bool)
    (fuel page : ℕ) (found : List NativeIssue) :
    Except Failure (ScanStatus × List NativeIssue × ℕ) → Prop
  /-- The transport raised. -/
  | raised {failure : Failure} (h : server (d.pagePath path page) = .failed failure) :
    Turn d server path dependencies fuel page found (.error failure)
  /-- The page is no reason to go on, nor the end of the listing. -/
  | stopped {status : ScanStatus} {issues : List NativeIssue} (hs : status ≠ .observed)
      (hi : d.Found found → d.Found issues) :
    Turn d server path dependencies fuel page found (.ok (status, issues, page))
  /-- The page is empty. -/
  | ended (h : server (d.pagePath path page) = .answered 200 (.arr [])) :
    Turn d server path dependencies fuel page found (.ok (.observed, found, page))
  /-- The page was read. -/
  | went {entries : List Json} {result : List NativeIssue}
      (h : server (d.pagePath path page) = .answered 200 (.arr entries)) (hne : entries ≠ [])
      (hle : entries.length ≤ d.pageSize)
      (henter : d.enter dependencies found entries = (result, none)) :
    Turn d server path dependencies fuel page found
      (d.scanFrom server path dependencies fuel (page + 1) result)

/-- The turns of a scan. -/
theorem turn_scanFrom (d : Discovery) (server : String → Answer) (path : String)
    (dependencies : Bool) (fuel page : ℕ) (found : List NativeIssue) :
    Turn d server path dependencies fuel page found
      (d.scanFrom server path dependencies (fuel + 1) page found) := by
  have hstop {status : ScanStatus} (hs : status ≠ .observed) :
      Turn d server path dependencies fuel page found (.ok (status, found, page)) :=
    .stopped hs id
  unfold scanFrom
  cases hanswer : server (d.pagePath path page) with
  | rebound => exact hstop (by simp)
  | lost => exact hstop (by simp)
  | failed failure => exact .raised hanswer
  | answered status payload =>
    simp only [Answer.read, ok_bind]
    split
    · exact hstop (by simp)
    split
    · cases dependencies <;> exact hstop (by simp)
    split
    · rename_i entries
      split
      · exact hstop (by simp)
      rename_i hstatus
      obtain rfl : status = 200 := not_not.mp hstatus
      split
      · rename_i hempty
        subst hempty
        exact .ended hanswer
      rename_i hne
      split
      · exact hstop (by simp)
      rename_i hle
      split
      · rename_i result reason henter
        refine .stopped (fun hreason => ?_) fun hfound => ?_
        · exact enter_ne_observed (hreason ▸ henter)
        · simpa [henter] using @Found.enter _ _ dependencies _ entries hfound
      · rename_i result henter
        exact .went hanswer hne (not_lt.mp hle) henter
    · exact hstop (by simp)

/-- What is found by a scan is kept apart, however it ends. -/
theorem Found.scanFrom {d : Discovery} {server : String → Answer} {path : String}
    {dependencies : Bool} :
    ∀ {fuel page : ℕ} {found : List NativeIssue}, d.Found found →
      ∀ {result : ScanStatus × List NativeIssue × ℕ},
        d.scanFrom server path dependencies fuel page found = .ok result → d.Found result.2.1
  | 0, page, found, h, result, hscan => by
    cases hscan
    exact h
  | fuel + 1, page, found, h, result, hscan => by
    have hturn := turn_scanFrom d server path dependencies fuel page found
    generalize hx : d.scanFrom server path dependencies (fuel + 1) page found = x at hturn hscan
    cases hturn with
    | raised => cases hscan
    | stopped hs hi =>
      cases hscan
      exact hi h
    | ended =>
      cases hscan
      exact h
    | went hanswer hne hle henter =>
      obtain ⟨issues, rfl, -, hfound⟩ := (enter_eq_none h).mp henter
      exact Found.scanFrom hfound hscan

/-- A scan ends well from a page on exactly when the pages from there list new issues. -/
theorem scanFrom_eq_observed {d : Discovery} {server : String → Answer} {path : String}
    {dependencies : Bool} {issues : List NativeIssue} :
    ∀ {fuel page : ℕ} {found : List NativeIssue}, d.Found found →
      ((∃ n, d.scanFrom server path dependencies fuel page found = .ok (.observed, issues, n)) ↔
        ∃ pages new, d.Listing server path page pages ∧ pages.length < fuel ∧
          pages.flatten.Forall₂ (d.Identifies dependencies) new ∧ issues = found ++ new ∧
          d.Found issues)
  | 0, page, found, h => by simp [scanFrom]
  | fuel + 1, page, found, h => by
    constructor
    · rintro ⟨n, hscan⟩
      have hturn := turn_scanFrom d server path dependencies fuel page found
      generalize hx : d.scanFrom server path dependencies (fuel + 1) page found = x
        at hturn hscan
      cases hturn with
      | raised => cases hscan
      | stopped hs =>
        cases hscan
        exact absurd rfl hs
      | ended hanswer =>
        cases hscan
        exact ⟨[], [], hanswer, Nat.succ_pos _, .nil, by simp, h⟩
      | went hanswer hne hle henter =>
        obtain ⟨read, rfl, hread, hfound⟩ := (enter_eq_none h).mp henter
        obtain ⟨pages, new, hlisting, hlen, hnew, rfl, hall⟩ :=
          (scanFrom_eq_observed hfound).mp ⟨n, hscan⟩
        refine ⟨_ :: pages, read ++ new, ⟨hanswer, hne, hle, hlisting⟩, Nat.succ_lt_succ hlen, ?_,
          by simp, hall⟩
        simpa using List.rel_append hread hnew
    · rintro ⟨pages, new, hlisting, hlen, hnew, rfl, hall⟩
      cases pages with
      | nil =>
        obtain rfl : new = [] := by simpa using hnew
        refine ⟨page, ?_⟩
        simp only [scanFrom, show server (d.pagePath path page) = _ from hlisting, Answer.read]
        simp [pure, Except.pure]
      | cons entries pages =>
        obtain ⟨hanswer, hne, hle, hlisting⟩ := hlisting
        obtain ⟨read, rest, rfl, hread, hrest⟩ := forall₂_append_left hnew
        rw [← List.append_assoc] at hall ⊢
        have hfirst : d.Found (found ++ read) := hall.of_append
        have henter := (enter_eq_none h).mpr ⟨read, rfl, hread, hfirst⟩
        obtain ⟨n, hscan⟩ := (scanFrom_eq_observed hfirst).mpr
          ⟨pages, rest, hlisting, Nat.lt_of_succ_lt_succ hlen, hrest, rfl, hall⟩
        refine ⟨n, ?_⟩
        simpa [scanFrom, hanswer, Answer.read, hne, not_lt.mpr hle, henter] using hscan

/-- A scan ends well exactly when the pages within the bound list the issues. -/
theorem scan_eq_observed {d : Discovery} {server : String → Answer} {path : String}
    {dependencies : Bool} {issues : List NativeIssue} :
    (∃ n, d.scan server path dependencies = .ok (.observed, issues, n)) ↔
      d.Lists server path dependencies issues := by
  have hempty : d.Found [] := ⟨by simp, by simp, by simp⟩
  rw [scan, scanFrom_eq_observed hempty]
  constructor
  · rintro ⟨pages, new, hlisting, hlen, hnew, rfl, hfound⟩
    exact ⟨pages, hlisting, hlen, hnew, hfound.nodup⟩
  · rintro ⟨pages, hlisting, hlen, hnew, hnodup⟩
    exact ⟨pages, issues, hlisting, hlen, hnew, rfl, found_of_names ⟨hnew, hnodup⟩⟩

/-- A scan returns when the transport does. -/
theorem exists_scanFrom {d : Discovery} {server : String → Answer} {path : String}
    {dependencies : Bool} (h : ∀ page failure, server (d.pagePath path page) ≠ .failed failure) :
    ∀ {fuel page : ℕ} {found : List NativeIssue},
      ∃ result, d.scanFrom server path dependencies fuel page found = .ok result
  | 0, page, found => ⟨_, rfl⟩
  | fuel + 1, page, found => by
    have hturn := turn_scanFrom d server path dependencies fuel page found
    generalize d.scanFrom server path dependencies (fuel + 1) page found = x at hturn ⊢
    cases hturn with
    | raised hfailed => exact absurd hfailed (h _ _)
    | stopped | ended => exact ⟨_, rfl⟩
    | went => exact exists_scanFrom h

/-! ## Observations -/

/-- Both scans list the same issues, and the clock stays in the freshness window. -/
structure Stable (d : Discovery) (w : Observer) (path : String) (dependencies : Bool)
    (issues : List NativeIssue) : Prop where
  opening : d.Lists (w.server 0) path dependencies issues
  closing : d.Lists (w.server 1) path dependencies issues
  inTime : ∃ openedAt closedAt, w.clock 0 = .ok (some openedAt) ∧
    w.clock 1 = .ok (some closedAt) ∧ openedAt ≤ closedAt ∧
    closedAt ≤ openedAt + d.freshnessSeconds

/-- A scan starts with nothing found. -/
theorem Found.scan {d : Discovery} {server : String → Answer} {path : String}
    {dependencies : Bool} {result : ScanStatus × List NativeIssue × ℕ}
    (h : d.scan server path dependencies = .ok result) : d.Found result.2.1 :=
  Found.scanFrom ⟨by simp, by simp, by simp⟩ h

/-- What is found by two scans was found by the first. -/
theorem Found.scanTwice {d : Discovery} {w : Observer} {path : String} {dependencies : Bool}
    {result : ScanStatus × List NativeIssue × ℕ}
    (h : d.scanTwice w path dependencies = .ok result) : d.Found result.2.1 := by
  obtain ⟨⟨status, issues, pages⟩, hscan, h⟩ := bind_eq_ok.mp h
  have hfound := Found.scan hscan
  dsimp only at h
  split at h
  · obtain ⟨⟨again, closing, closingPages⟩, -, h⟩ := bind_eq_ok.mp h
    cases h
    exact hfound
  · cases h
    exact hfound

/-- Two scans end well exactly when both list the same issues. -/
theorem scanTwice_eq_observed {d : Discovery} {w : Observer} {path : String}
    {dependencies : Bool} {issues : List NativeIssue} :
    (∃ n, d.scanTwice w path dependencies = .ok (.observed, issues, n)) ↔
      d.Lists (w.server 0) path dependencies issues ∧
        d.Lists (w.server 1) path dependencies issues := by
  constructor
  · rintro ⟨n, h⟩
    obtain ⟨⟨status, first, pages⟩, hscan, h⟩ := bind_eq_ok.mp h
    dsimp only at h
    split at h
    · rename_i hstatus
      obtain ⟨⟨again, closing, closingPages⟩, hagain, h⟩ := bind_eq_ok.mp h
      dsimp only at h
      subst hstatus
      have hends : again = .observed ∧ first = closing ∧ first = issues := by
        by_cases ha : again = .observed <;> by_cases hc : first = closing <;>
          simp_all [pure, Except.pure]
      obtain ⟨rfl, rfl, rfl⟩ := hends
      exact ⟨scan_eq_observed.mp ⟨_, hscan⟩, scan_eq_observed.mp ⟨_, hagain⟩⟩
    · rename_i hstatus
      cases h
      exact absurd rfl hstatus
  · rintro ⟨hopening, hclosing⟩
    obtain ⟨n, hscan⟩ := scan_eq_observed.mpr hopening
    obtain ⟨m, hagain⟩ := scan_eq_observed.mpr hclosing
    refine ⟨n + m, ?_⟩
    simp [scanTwice, hscan, hagain, pure, Except.pure]

/-- What an observation says. -/
theorem observe_eq_ok {d : Discovery} {w : Observer} {path : String} {dependencies : Bool}
    {s : IssueScan} (h : d.observe w path dependencies = .ok s) :
    w.clock 0 = .ok (some s.observedAt) ∧ s.freshUntil = s.observedAt + d.freshnessSeconds ∧
      d.Found s.issues ∧
      ∀ issues, s.status = .observed ∧ s.issues = issues ↔ d.Stable w path dependencies issues := by
  obtain ⟨reading, hreading, h⟩ := bind_eq_ok.mp h
  obtain ⟨openedAt, hopened, h⟩ := bind_eq_ok.mp h
  obtain ⟨⟨status, found, pages⟩, hscan, h⟩ := bind_eq_ok.mp h
  obtain ⟨closing, hclosing, h⟩ := bind_eq_ok.mp h
  cases h
  obtain ⟨rfl, -⟩ := Option.filter_eq_some_iff.mp (lookup_eq_ok.mp hopened)
  refine ⟨hreading, rfl, Found.scanTwice hscan, fun issues => ?_⟩
  have htwice := @scanTwice_eq_observed _ d w path dependencies issues
  constructor
  · rintro ⟨hstatus, rfl⟩
    split at hstatus
    · rename_i htime
      obtain rfl : status = .observed := hstatus
      obtain ⟨hfirst, hsecond⟩ := htwice.mp ⟨_, hscan⟩
      obtain ⟨closedAt, rfl, hle, hge⟩ : ∃ t, closing = some t ∧ openedAt ≤ t ∧
          t ≤ openedAt + d.freshnessSeconds := by
        simpa [Option.any_eq_true] using htime
      exact ⟨hfirst, hsecond, openedAt, closedAt, hreading, hclosing, hle, hge⟩
    · cases hstatus
  · rintro ⟨hfirst, hsecond, opened, closedAt, hopen, hclose, hle, hge⟩
    obtain ⟨n, hn⟩ := htwice.mpr ⟨hfirst, hsecond⟩
    rw [hn] at hscan
    rw [hopen] at hreading
    rw [hclose] at hclosing
    cases hscan
    cases hreading
    cases hclosing
    simp [hle, hge]

/-- An observation is made when the clock is qualified and neither it nor the transport raises. -/
theorem exists_observe {d : Discovery} {w : Observer} {path : String} {dependencies : Bool}
    {openedAt : ℤ} {closing : Option ℤ} (hopen : w.clock 0 = .ok (some openedAt))
    (hpos : 0 ≤ openedAt) (hclose : w.clock 1 = .ok closing)
    (hserver : ∀ scan page failure, w.server scan (d.pagePath path page) ≠ .failed failure) :
    ∃ s, d.observe w path dependencies = .ok s := by
  obtain ⟨⟨status, issues, pages⟩, hfirst⟩ : ∃ r, d.scan (w.server 0) path dependencies = .ok r :=
    exists_scanFrom (hserver 0)
  obtain ⟨⟨again, closed, closedPages⟩, hsecond⟩ :
      ∃ r, d.scan (w.server 1) path dependencies = .ok r :=
    exists_scanFrom (hserver 1)
  obtain ⟨r, htwice⟩ : ∃ r, d.scanTwice w path dependencies = .ok r := by
    by_cases hstatus : status = .observed <;>
      simp [scanTwice, hfirst, hsecond, hstatus, pure, Except.pure]
  exact ⟨_, bind_of_ok hopen <| bind_of_ok (lookup_eq_ok.mpr
    (Option.filter_eq_some_iff.mpr ⟨rfl, by simpa using hpos⟩)) <| bind_of_ok htwice <|
      bind_of_ok hclose rfl⟩

/-! ## Evidence -/

omit [Sha256] in
/-- The obligations of issues that were found apart are different. -/
theorem Found.nodup_obligations {d : Discovery} {issues : List NativeIssue} (h : d.Found issues) :
    ((issues.map NativeIssue.obligation).map tupleOrder).Nodup := by
  refine List.Nodup.of_map (fun o => ((ofLex (ofLex o).2) : String × ℕ)) ?_
  rw [List.map_map, List.map_map]
  exact h.nodup

/-- The subject of a reading: an issue of the configured repository. -/
def Covers (d : Discovery) (subject : IssueSubject) : Prop :=
  subject.origin.val = d.origin ∧ subject.repository.val = d.repository ∧ 0 < subject.issue

/-- What the evidence about an observation is made of. -/
theorem init_of_found {d : Discovery} {s : IssueScan} (hfound : d.Found s.issues)
    (hfresh : s.freshUntil = s.observedAt + d.freshnessSeconds) (subject : IssueSubject) :
    ∃ e, DependencyEvidence.init subject
        (SortedBy.sortBy tupleOrder (s.issues.map NativeIssue.obligation)) s.evidenceDigest.val
        s.observedAt s.freshUntil (s.status = .observed) = .ok e ∧
      e.required = SortedBy.sortBy tupleOrder (s.issues.map NativeIssue.obligation) ∧
      e.observedAt = s.observedAt ∧ e.freshUntil = s.freshUntil ∧ e.subject = subject ∧
      (e.complete = true ↔ s.status = .observed) := by
  have hperm : (SortedBy.sortBy tupleOrder (s.issues.map NativeIssue.obligation)).Perm
      (s.issues.map NativeIssue.obligation) := SortedBy.perm_sortBy _
  have hvalid : (∀ o ∈ SortedBy.sortBy tupleOrder (s.issues.map NativeIssue.obligation),
        0 < o.2.2) ∧
      (SortedBy.sortBy tupleOrder (s.issues.map NativeIssue.obligation)).Nodup ∧
      s.evidenceDigest.val ≠ "" ∧ s.observedAt ≤ s.freshUntil := by
    refine ⟨fun o ho => ?_, ?_, ?_, by omega⟩
    · obtain ⟨i, hi, rfl⟩ := List.mem_map.mp (hperm.mem_iff.mp ho)
      exact hfound.positive i hi
    · exact (hperm.nodup_iff.mpr hfound.nodup_obligations.of_map)
    · intro hempty
      have hnonblank := s.evidenceDigest.property
      rw [hempty] at hnonblank
      exact absurd hnonblank (by decide)
  refine ⟨_, dif_pos hvalid, rfl, rfl, rfl, rfl, by simp⟩

/-- The evidence about the dependencies of an issue is complete exactly when both scans list the
same issues within the freshness window; then the issues listed are exactly the ones required, in
order, and the evidence is fresh from the first reading of the clock on. It is always given when
the clock is qualified and neither it nor the transport raises, and no specification is built on
incomplete evidence. -/
theorem read_dependencies_exact (d : Discovery) (w : Observer) (subject : IssueSubject) :
    (∀ e, d.readDependencies w subject = .ok e → e.subject = subject ∧ d.Covers subject ∧
      (e.complete = true ↔ ∃ issues, d.Stable w (d.dependenciesPath subject.issue) true issues) ∧
      ∀ issues, d.Stable w (d.dependenciesPath subject.issue) true issues →
        e.required.Pairwise (tupleOrder · < tupleOrder ·) ∧
        (∀ o, o ∈ e.required ↔ ∃ i ∈ issues, i.obligation = o) ∧
        w.clock 0 = .ok (some e.observedAt) ∧
        e.freshUntil = e.observedAt + d.freshnessSeconds) ∧
    (∀ openedAt closing, d.Covers subject → w.clock 0 = .ok (some openedAt) → 0 ≤ openedAt →
      w.clock 1 = .ok closing → (∀ scan path failure, w.server scan path ≠ .failed failure) →
      ∃ e, d.readDependencies w subject = .ok e) ∧
    ∀ e, d.readDependencies w subject = .ok e → e.complete = false →
      ∀ (o : OrdinaryProgram) (p : OrdinaryProposal) (previous : Option Program)
        (result : ProgramSpec), e ∈ p.dependencies → o.spec p previous ≠ .ok result := by
  refine ⟨fun e h => ?_, fun openedAt closing hcovers hopen hpos hclose hserver => ?_,
    fun e _ hcomplete o p previous result he hspec => ?_⟩
  · obtain ⟨⟨horigin, hrepository⟩, h⟩ := check_bind_eq_ok.mp h
    obtain ⟨s, hs, h⟩ := bind_eq_ok.mp h
    obtain ⟨hissue, hs⟩ := check_bind_eq_ok.mp hs
    obtain ⟨hopen, hfresh, hfound, hstable⟩ := observe_eq_ok hs
    obtain ⟨e', he, hrequired, hobserved, huntil, hsubject, hcomplete⟩ :=
      init_of_found hfound hfresh subject
    obtain rfl : e' = e := Except.ok.inj (he.symm.trans h)
    refine ⟨hsubject, ⟨horigin, hrepository, hissue⟩, ?_, fun issues hissues => ?_⟩
    · rw [hcomplete]
      exact ⟨fun hstatus => ⟨_, (hstable _).mp ⟨hstatus, rfl⟩⟩,
        fun ⟨issues, hissues⟩ => ((hstable issues).mpr hissues).1⟩
    · obtain ⟨-, rfl⟩ := (hstable issues).mpr hissues
      rw [hrequired, hobserved, huntil]
      refine ⟨SortedBy.pairwise_sortBy hfound.nodup_obligations, fun o => ?_, hopen, hfresh⟩
      rw [(SortedBy.perm_sortBy _).mem_iff, List.mem_map]
  · obtain ⟨s, hs⟩ := @exists_observe _ d w (d.dependenciesPath subject.issue) true _ _ hopen hpos
      hclose fun scan page => hserver scan (d.pagePath (d.dependenciesPath subject.issue) page)
    obtain ⟨-, hfresh, hfound, -⟩ := observe_eq_ok hs
    obtain ⟨e, he, -⟩ := init_of_found hfound hfresh subject
    exact ⟨e, check_bind_eq_ok.mpr ⟨⟨hcovers.1, hcovers.2.1⟩,
      bind_of_ok (check_bind_eq_ok.mpr ⟨hcovers.2.2, hs⟩) he⟩⟩
  · have h := (OrdinaryProgram.spec_eq_ok hspec e he).1
    rw [hcomplete] at h
    cases h

end Discovery

end Intake

end CreatidyKernel
