import CreatidyKernel.Intake.Records
import CreatidyKernel.Lib.JsonText

set_option relaxedAutoImplicit false
set_option autoImplicit false

/-!
# The grammar of the keys

The keys of all tasks share one space that is scanned by prefix. Since no accepted identifier
holds a colon, a key tells its kind, its task and its number, and a prefix that ends in a colon
finds the keys of one kind and one task only.

## Main definitions

* `Intake.Key` — the keys the intake writes, with their texts.
* `Intake.Key.parts` — what stands between the colons of a key.

## Main results

* `Intake.Key.text_injective` — keys do not collide.
* `Intake.draftPrefix_iff`, `Intake.fallbackPrefix_iff` — what the scans of `history` find.
-/

namespace CreatidyKernel

namespace Intake

/-- The keys the intake writes. -/
inductive Key
  | draft (taskId : String) (revision : ℕ)
  | fallback (taskId : String) (revision : ℕ)
  | decision (decisionId : String)
  | consumption (taskId : String) (ordinal : ℕ)
  | age (hex : String) (observedAt : ℤ)
deriving DecidableEq

namespace Key

/-- The text of a key. -/
def text : Key → String
  | .draft taskId revision => draftKey taskId revision
  | .fallback taskId revision => fallbackKey taskId revision
  | .decision decisionId => decisionKey decisionId
  | .consumption taskId ordinal => consumptionKey taskId ordinal
  | .age hex observedAt => "ordinary:baseline-age:" ++ hex ++ ":" ++ toString observedAt

/-- The identifiers of a key are accepted ones, and its digest is a digest. -/
def Accepted : Key → Prop
  | .draft taskId _ => Intake.Accepted taskId
  | .fallback taskId _ => Intake.Accepted taskId
  | .decision decisionId => Intake.Accepted decisionId
  | .consumption taskId _ => Intake.Accepted taskId
  | .age hex _ => isHex64 hex.toList = true

/-- What stands between the colons of a key. -/
def parts : Key → List (List Char)
  | .draft taskId revision =>
    ["ordinary".toList, taskId.toList, "draft".toList, (toString revision).toList]
  | .fallback taskId revision =>
    ["ordinary".toList, "record".toList, "ordinary-draft".toList, taskId.toList,
      (toString revision).toList]
  | .decision decisionId => ["ordinary".toList, "decision".toList, decisionId.toList]
  | .consumption taskId ordinal =>
    ["ordinary".toList, "consumed".toList, taskId.toList, "record".toList,
      (toString ordinal).toList]
  | .age hex observedAt =>
    ["ordinary".toList, "baseline-age".toList, hex.toList, (toString observedAt).toList]

end Key

/-! ## No colons -/

theorem colon_notMem_of_isId {s : List Char} (h : isId s = true) : ':' ∉ s := by
  intro hmem
  have hall : ∀ c ∈ s, idChar c = true := by
    simp only [isId, Bool.and_eq_true, List.all_eq_true] at h
    exact h.2
  exact absurd (hall _ hmem) (by decide)

theorem colon_notMem_of_isHex64 {s : List Char} (h : isHex64 s = true) : ':' ∉ s := by
  intro hmem
  simp only [isHex64, Bool.and_eq_true, List.all_eq_true] at h
  exact absurd (h.2 _ hmem) (by decide)

theorem colon_notMem_digits (n : ℕ) : ':' ∉ Nat.toDigits 10 n := by
  intro hmem
  exact absurd (Nat.isDigit_of_mem_toDigits (by norm_num) (by norm_num) hmem) (by decide)

theorem colon_notMem_nat (n : ℕ) : ':' ∉ (toString n).toList := by
  simpa using colon_notMem_digits n

theorem colon_notMem_int (n : ℤ) : ':' ∉ (toString n).toList := by
  cases n with
  | ofNat n => exact colon_notMem_nat n
  | negSucc n =>
    show ':' ∉ ("-" ++ (n + 1).repr).toList
    simpa using colon_notMem_digits (n + 1)

theorem isOrdinal_digits {n : ℕ} (h : 0 < n) : isOrdinal (toString n).toList = true := by
  have hdigits : ∀ c ∈ Nat.toDigits 10 n, c.isDigit = true := fun c hc =>
    Nat.isDigit_of_mem_toDigits (by norm_num) (by norm_num) hc
  have hzero := Json.head_toDigits_ne_zero n h
  have hstr : (toString n).toList = Nat.toDigits 10 n := by simp
  rw [hstr]
  cases hd : Nat.toDigits 10 n with
  | nil => exact absurd hd Nat.toDigits_ne_nil
  | cons c r =>
    rw [hd] at hdigits hzero
    simp only [isOrdinal, Bool.and_eq_true, decide_eq_true_eq, List.all_eq_true]
    have hc := hdigits c List.mem_cons_self
    have hne : c ≠ '0' := fun e => hzero (by rw [e]; rfl)
    refine ⟨⟨?_, ?_⟩, fun d hmem => hdigits d (List.mem_cons_of_mem _ hmem)⟩
    · simp only [Char.isDigit, Bool.and_eq_true, decide_eq_true_eq, Char.le_def] at hc ⊢
      have hval : c.val ≠ '0'.val := fun e => hne (Char.ext e)
      simp only [UInt32.le_iff_toNat_le, ne_eq, UInt32.toNat_inj.symm] at hc hval ⊢
      have h0 : '0'.val.toNat = 48 := rfl
      have h1 : '1'.val.toNat = 49 := rfl
      omega
    · simp only [Char.isDigit, Bool.and_eq_true, decide_eq_true_eq, Char.le_def] at hc ⊢
      exact hc.2

theorem toString_int_toList (n : ℤ) : (toString n).toList = Json.printInt n := by
  cases n with
  | ofNat n =>
    show (toString n).toList = Nat.toDigits 10 n
    simp
  | negSucc n =>
    show ("-" ++ (n + 1).repr).toList = '-' :: Nat.toDigits 10 (n + 1)
    simp

theorem toString_int_inj {n m : ℤ} : toString n = toString m ↔ n = m := by
  refine ⟨fun h => ?_, fun h => by rw [h]⟩
  have hprint : Json.printInt n = Json.printInt m := by
    rw [← toString_int_toList, ← toString_int_toList, h]
  have hscan := Json.scanInt_printInt n (r := []) rfl
  rw [hprint, Json.scanInt_printInt m (r := []) rfl] at hscan
  exact (congrArg Prod.fst (Option.some.inj hscan)).symm

theorem toString_nat_inj {n m : ℕ} : toString n = toString m ↔ n = m :=
  (toString_int_inj (n := n) (m := m)).trans Int.ofNat_inj

/-! ## Parts -/

namespace Key

theorem parts_free {k : Key} (h : k.Accepted) : ∀ s ∈ k.parts, ':' ∉ s := by
  have hlit : ∀ s ∈ ["ordinary".toList, "draft".toList, "record".toList,
      "ordinary-draft".toList, "decision".toList, "consumed".toList, "baseline-age".toList],
      ':' ∉ s := by decide
  have hn := colon_notMem_nat
  have hi := colon_notMem_int
  cases k with
  | draft t n =>
    have ht := colon_notMem_of_isId h
    simp only [parts, List.mem_cons, List.not_mem_nil, or_false, forall_eq_or_imp,
      forall_eq] at hlit ⊢
    exact ⟨hlit.1, ht, hlit.2.1, hn n⟩
  | fallback t n =>
    have ht := colon_notMem_of_isId h
    simp only [parts, List.mem_cons, List.not_mem_nil, or_false, forall_eq_or_imp,
      forall_eq] at hlit ⊢
    exact ⟨hlit.1, hlit.2.2.1, hlit.2.2.2.1, ht, hn n⟩
  | decision d =>
    have hd := colon_notMem_of_isId h
    simp only [parts, List.mem_cons, List.not_mem_nil, or_false, forall_eq_or_imp,
      forall_eq] at hlit ⊢
    exact ⟨hlit.1, hlit.2.2.2.2.1, hd⟩
  | consumption t n =>
    have ht := colon_notMem_of_isId h
    simp only [parts, List.mem_cons, List.not_mem_nil, or_false, forall_eq_or_imp,
      forall_eq] at hlit ⊢
    exact ⟨hlit.1, hlit.2.2.2.2.2.1, ht, hlit.2.2.1, hn n⟩
  | age hex n =>
    have hhex := colon_notMem_of_isHex64 h
    simp only [parts, List.mem_cons, List.not_mem_nil, or_false, forall_eq_or_imp,
      forall_eq] at hlit ⊢
    exact ⟨hlit.1, hlit.2.2.2.2.2.2, hhex, hi n⟩

theorem text_eq (k : Key) : k.text.toList = [':'].intercalate k.parts := by
  have hord : "ordinary:" = "ordinary" ++ ":" := rfl
  have hdraft : ":draft:" = ":" ++ "draft" ++ ":" := rfl
  have hrecord : ":record:" = ":" ++ "record" ++ ":" := rfl
  have hfall : "ordinary:record:ordinary-draft:" =
    "ordinary" ++ ":" ++ "record" ++ ":" ++ "ordinary-draft" ++ ":" := rfl
  have hdec : "ordinary:decision:" = "ordinary" ++ ":" ++ "decision" ++ ":" := rfl
  have hcons : "ordinary:consumed:" = "ordinary" ++ ":" ++ "consumed" ++ ":" := rfl
  have hage : "ordinary:baseline-age:" = "ordinary" ++ ":" ++ "baseline-age" ++ ":" := rfl
  have hcolon : ":".toList = [':'] := rfl
  -- the literals are cut by hand: unifying two of them unfolds both
  have htext : k.text = match k with
    | .draft t n => ("ordinary" ++ ":") ++ t ++ (":" ++ "draft" ++ ":") ++ toString n
    | .fallback t n => ("ordinary" ++ ":" ++ "record" ++ ":" ++ "ordinary-draft" ++ ":") ++ t ++
      ":" ++ toString n
    | .decision d => ("ordinary" ++ ":" ++ "decision" ++ ":") ++ d
    | .consumption t n => ("ordinary" ++ ":" ++ "consumed" ++ ":") ++ t ++
      (":" ++ "record" ++ ":") ++ toString n
    | .age hex n => ("ordinary" ++ ":" ++ "baseline-age" ++ ":") ++ hex ++ ":" ++ toString n := by
    cases k with
    | draft t n => exact congrArg₂ (fun a b => a ++ t ++ b ++ toString n) hord hdraft
    | fallback t n => exact congrArg (fun a => a ++ t ++ ":" ++ toString n) hfall
    | decision d => exact congrArg (fun a => a ++ d) hdec
    | consumption t n => exact congrArg₂ (fun a b => a ++ t ++ b ++ toString n) hcons hrecord
    | age hex n => exact congrArg (fun a => a ++ hex ++ ":" ++ toString n) hage
  rw [htext]
  cases k <;>
    simp only [String.toList_append, hcolon, parts, List.intercalate_cons_cons,
      List.intercalate_singleton, List.append_assoc]

/-- A key is read back by its parts. -/
theorem segments_text {k : Key} (h : k.Accepted) : segments k.text = k.parts := by
  rw [segments, text_eq]
  exact List.splitOn_intercalate ':' (parts_free h) (by cases k <;> simp [parts])

theorem parts_injective {k k' : Key} (h : k.Accepted) (h' : k'.Accepted)
    (he : k.parts = k'.parts) : k = k' := by
  have hdraft : ∀ hex : String, isHex64 hex.toList = true → hex.toList ≠ "draft".toList := by
    intro hex hhex heq
    rw [heq] at hhex
    exact absurd hhex (by decide)
  cases k <;> cases k' <;>
    simp only [parts, List.cons.injEq, true_and, and_true, String.toList_inj, reduceCtorEq,
      and_false, toString_nat_inj, toString_int_inj] at he
  case draft.draft =>
    obtain ⟨rfl, rfl⟩ := he
    rfl
  case draft.age =>
    obtain ⟨-, heq, -⟩ := he
    exact absurd (congrArg String.toList heq).symm (hdraft _ h')
  case fallback.fallback =>
    obtain ⟨rfl, rfl⟩ := he
    rfl
  case fallback.consumption => exact absurd he.1 (by decide)
  case decision.decision => rw [he]
  case consumption.fallback => exact absurd he.1 (by decide)
  case consumption.consumption =>
    obtain ⟨rfl, rfl⟩ := he
    rfl
  case age.draft =>
    obtain ⟨-, heq, -⟩ := he
    exact absurd (congrArg String.toList heq) (hdraft _ h)
  case age.age =>
    obtain ⟨rfl, rfl⟩ := he
    rfl

/-- **Keys do not collide**: the text of a key tells its kind, its task and its number. -/
theorem text_injective {k k' : Key} (h : k.Accepted) (h' : k'.Accepted)
    (he : k.text = k'.text) : k = k' := by
  apply parts_injective h h'
  rw [← segments_text h, ← segments_text h', he]

end Key

/-! ## Scans -/

/-- A key that starts with some parts and a colon extends these parts. -/
theorem Key.parts_of_prefix {k : Key} (h : k.Accepted) {ps : List (List Char)} (hps : ps ≠ [])
    (hfree : ∀ s ∈ ps, ':' ∉ s) (hp : [':'].intercalate ps ++ [':'] <+: k.text.toList) :
    ∃ m, k.parts = ps ++ m := by
  obtain ⟨r, hr⟩ := hp
  refine ⟨r.splitOn ':', ?_⟩
  rw [← segments_text h, segments, ← hr, List.append_assoc, List.singleton_append,
    List.splitOn_append_cons_self, List.splitOn_intercalate ':' hfree hps]

/-- The prefix `history` scans for drafts. -/
def draftPrefix (taskId : String) : String := "ordinary:" ++ taskId ++ ":draft:"

/-- The prefix `history` scans for drafts under the fallback keys. -/
def fallbackPrefix (taskId : String) : String := "ordinary:record:ordinary-draft:" ++ taskId ++ ":"

theorem draftPrefix_toList (t : String) : (draftPrefix t).toList =
    [':'].intercalate ["ordinary".toList, t.toList, "draft".toList] ++ [':'] := by
  have hord : "ordinary:" = "ordinary" ++ ":" := rfl
  have hdraft : ":draft:" = ":" ++ "draft" ++ ":" := rfl
  have hcolon : ":".toList = [':'] := rfl
  have htext : draftPrefix t = ("ordinary" ++ ":") ++ t ++ (":" ++ "draft" ++ ":") :=
    congrArg₂ (fun a b => a ++ t ++ b) hord hdraft
  rw [htext]
  simp only [String.toList_append, hcolon, List.intercalate_cons_cons,
    List.intercalate_singleton, List.append_assoc]

theorem fallbackPrefix_toList (t : String) : (fallbackPrefix t).toList =
    [':'].intercalate ["ordinary".toList, "record".toList, "ordinary-draft".toList, t.toList] ++
      [':'] := by
  have hfall : "ordinary:record:ordinary-draft:" =
    "ordinary" ++ ":" ++ "record" ++ ":" ++ "ordinary-draft" ++ ":" := rfl
  have hcolon : ":".toList = [':'] := rfl
  have htext : fallbackPrefix t =
      ("ordinary" ++ ":" ++ "record" ++ ":" ++ "ordinary-draft" ++ ":") ++ t ++ ":" :=
    congrArg (fun a => a ++ t ++ ":") hfall
  rw [htext]
  simp only [String.toList_append, hcolon, List.intercalate_cons_cons,
    List.intercalate_singleton, List.append_assoc]

/-- Among the keys of drafts the first scan of a task finds its first keys. -/
theorem draftPrefix_iff {t u : String} {n : ℕ} {k : Key} (ht : Accepted t) (hu : Accepted u)
    (hk : k = .draft u n ∨ k = .fallback u n) :
    (draftPrefix t).toList.isPrefixOf k.text.toList = true ↔ k = .draft t n := by
  have hcolon := colon_notMem_of_isId ht
  rw [List.isPrefixOf_iff_prefix]
  constructor
  · intro hp
    rw [draftPrefix_toList] at hp
    have hfree : ∀ s ∈ ["ordinary".toList, t.toList, "draft".toList], ':' ∉ s := by
      simp only [List.mem_cons, List.not_mem_nil, or_false, forall_eq_or_imp, forall_eq]
      exact ⟨by decide, hcolon, by decide⟩
    have hacc : k.Accepted := by
      rcases hk with rfl | rfl
      · exact hu
      · exact hu
    obtain ⟨m, hm⟩ := Key.parts_of_prefix hacc (by simp) hfree hp
    rcases hk with rfl | rfl
    · simp only [Key.parts, List.cons_append, List.nil_append, List.cons.injEq, true_and] at hm
      rw [String.toList_inj.1 hm.1]
    · simp only [Key.parts, List.cons_append, List.nil_append, List.cons.injEq, true_and] at hm
      exact absurd hm.2.1 (by decide)
  · rintro rfl
    rw [show Key.text (.draft t n) = draftPrefix t ++ toString n from rfl, String.toList_append]
    exact List.prefix_append _ _

/-- And the second scan finds its fallback keys. -/
theorem fallbackPrefix_iff {t u : String} {n : ℕ} {k : Key} (ht : Accepted t) (hu : Accepted u)
    (hk : k = .draft u n ∨ k = .fallback u n) :
    (fallbackPrefix t).toList.isPrefixOf k.text.toList = true ↔ k = .fallback t n := by
  have hcolon := colon_notMem_of_isId ht
  rw [List.isPrefixOf_iff_prefix]
  constructor
  · intro hp
    rw [fallbackPrefix_toList] at hp
    have hfree : ∀ s ∈ ["ordinary".toList, "record".toList, "ordinary-draft".toList, t.toList],
        ':' ∉ s := by
      simp only [List.mem_cons, List.not_mem_nil, or_false, forall_eq_or_imp, forall_eq]
      exact ⟨by decide, by decide, by decide, hcolon⟩
    have hacc : k.Accepted := by
      rcases hk with rfl | rfl
      · exact hu
      · exact hu
    obtain ⟨m, hm⟩ := Key.parts_of_prefix hacc (by simp) hfree hp
    rcases hk with rfl | rfl
    · simp only [Key.parts, List.cons_append, List.nil_append, List.cons.injEq, true_and] at hm
      exact absurd hm.2.1 (by decide)
    · simp only [Key.parts, List.cons_append, List.nil_append, List.cons.injEq, true_and] at hm
      rw [String.toList_inj.1 hm.1]
  · rintro rfl
    rw [show Key.text (.fallback t n) = fallbackPrefix t ++ toString n from rfl,
      String.toList_append]
    exact List.prefix_append _ _

/-- The key of a consumption is one `_recover` accepts. -/
theorem isConsumptionKey_text {t : String} {n : ℕ} (ht : Accepted t) (hn : 0 < n) :
    isConsumptionKey (consumptionKey t n) = true := by
  have hseg : segments (consumptionKey t n) = (Key.consumption t n).parts :=
    Key.segments_text (k := .consumption t n) ht
  simp only [isConsumptionKey, hseg, Key.parts, decide_true, Bool.true_and, isOrdinal_digits hn,
    Bool.and_true]
  exact ht

end Intake

end CreatidyKernel
