import Mathlib
import CreatidyKernel.Codec.Fingerprint
import CreatidyKernel.Lib.Delimited
import CreatidyKernel.Source.CacheIdentity

set_option relaxedAutoImplicit false
set_option autoImplicit false

/-!
# Canonical repositories

A canonical URL is read back by its own parts: only the suffix `.git` may be dropped once more.
So a URL whose path ends with that suffix twice has two canonical forms, by how often a caller
reduces it; all other URLs have one, and their identities agree exactly when it does.

## Main definitions

* `Source.Reduced` — the host and the port of a canonical URL.
* `Source.Identified` — what the callers rely on.

## Main results

* `Source.canonicalRepository_text` — the canonical form of a canonical URL.
* `Source.cache_identity_canonical` — the callers agree exactly on URLs without a double suffix.
-/

namespace CreatidyKernel

namespace Source

open Checked Intake

/-! ## Texts -/

section

variable {c : Char} {l r : List Char}

/-- A text is divided at its first mark. -/
theorem divide_append (h : c ∉ l) : divide c (l ++ c :: r) = (l, r) := by
  have hall : ∀ a ∈ l, decide (a ≠ c) = true := by
    intro a ha
    rw [decide_eq_true_eq]
    rintro rfl
    exact h ha
  have htake : (l ++ c :: r).takeWhile (· ≠ c) = l := by
    rw [List.takeWhile_append_of_pos hall]
    simp
  have hdrop : (l ++ c :: r).dropWhile (· ≠ c) = c :: r := by
    rw [List.dropWhile_append_of_pos hall]
    simp
  rw [divide, htake, hdrop, List.tail_cons]

/-- A text without the mark is not divided. -/
theorem divide_of_notMem (h : c ∉ l) : divide c l = (l, []) := by
  have hall : ∀ a ∈ l, decide (a ≠ c) = true := by
    intro a ha
    rw [decide_eq_true_eq]
    rintro rfl
    exact h ha
  rw [divide, List.takeWhile_eq_self_iff.mpr hall, List.dropWhile_eq_nil_iff.mpr hall,
    List.tail_nil]

end

/-- A character is lowered by its number, or is its own lower case. -/
theorem toLower_cases (c : Char) : c.toLower = c ∨
    65 ≤ c.toNat ∧ c.toNat ≤ 90 ∧ c.toLower.toNat = c.toNat + 32 := by
  unfold Char.toLower
  split
  · rename_i h
    have h1 : ('A' : Char).val.toNat = 65 := rfl
    have h2 : ('Z' : Char).val.toNat = 90 := rfl
    have h3 : ('a' : Char).val.toNat = 97 := rfl
    have h4 : c.toNat = c.val.toNat := rfl
    simp only [ge_iff_le, UInt32.le_iff_toNat_le] at h
    refine .inr ⟨by omega, by omega, ?_⟩
    simp only [Char.toNat, UInt32.toNat_add, UInt32.toNat_sub]
    omega
  · exact .inl rfl

/-- A lowered character is not lowered further. -/
@[simp]
theorem lowerChar_lowerChar (c : Char) : lowerChar (lowerChar c) = lowerChar c := by
  unfold lowerChar
  split
  · rfl
  · rename_i hne
    rcases toLower_cases c with h | ⟨hlow, hhigh, hval⟩
    · rw [h, if_neg hne, h]
    · rw [if_neg]
      · rcases toLower_cases c.toLower with h | ⟨_, hhigh', _⟩
        · exact h
        · omega
      · intro heq
        rw [heq] at hval
        have hkelvin : ('\u212a' : Char).toNat = 0x212a := rfl
        omega

theorem lowerChar_eq_colon {c : Char} (h : lowerChar c = ':') : c = ':' := by
  unfold lowerChar at h
  split at h
  · exact absurd h (by decide)
  · rcases toLower_cases c with hself | ⟨hlow, _, hval⟩
    · rwa [← hself]
    · rw [h] at hval
      have hcolon : (':' : Char).toNat = 58 := rfl
      omega

/-- The letters and the digits are printed, and none of them is a mark. -/
theorem of_isAlpha_or {c : Char} (h : c.isAlpha = true ∨ c.isDigit = true) :
    33 ≤ c.toNat ∧ c.toNat ≤ 122 ∧ c.toNat ∉ [47, 63, 35, 64, 91, 93, 58] := by
  simp only [Char.isAlpha, Char.isUpper, Char.isLower, Char.isDigit, Bool.or_eq_true,
    Bool.and_eq_true, decide_eq_true_eq, ge_iff_le, UInt32.le_iff_toNat_le] at h
  have h1 : ('A' : Char).val.toNat = 65 := rfl
  have h2 : ('Z' : Char).val.toNat = 90 := rfl
  have h3 : ('a' : Char).val.toNat = 97 := rfl
  have h4 : ('z' : Char).val.toNat = 122 := rfl
  have h5 : ('0' : Char).val.toNat = 48 := rfl
  have h6 : ('9' : Char).val.toNat = 57 := rfl
  have h7 : c.toNat = c.val.toNat := rfl
  simp only [List.mem_cons, List.not_mem_nil, or_false]
  omega

/-- A character that is none of some marks, by its number. -/
theorem notMem_of_toNat {c : Char} {l : List Char} (h : c.toNat ∉ l.map Char.toNat) : c ∉ l :=
  fun hmem => h (List.mem_map_of_mem hmem)

/-- The characters of a host are printed, and none of them ends an authority. -/
theorem of_hostChar {c : Char} (h : hostChar c = true) :
    33 ≤ c.toNat ∧ c.toNat ≤ 126 ∧ c ∉ ['/', '?', '#', '@', '[', ']'] := by
  simp only [hostChar, Bool.or_eq_true, beq_iff_eq] at h
  rcases h with ((h | rfl) | rfl) | rfl
  · obtain ⟨hlow, hhigh, hmark⟩ := of_isAlpha_or h
    refine ⟨hlow, by omega, notMem_of_toNat fun hmem => hmark ?_⟩
    exact List.mem_of_mem_take (i := 6) hmem
  all_goals decide

/-- The characters of a path are printed, and none of them is a mark. -/
theorem of_pathChar {c : Char} (h : pathChar c = true) :
    33 ≤ c.toNat ∧ c.toNat ≤ 126 ∧ c ∉ ['/', '?', '#'] := by
  simp only [pathChar, Bool.or_eq_true, beq_iff_eq] at h
  rcases h with (((h | rfl) | rfl) | rfl) | rfl
  · obtain ⟨hlow, hhigh, hmark⟩ := of_isAlpha_or h
    refine ⟨hlow, by omega, notMem_of_toNat fun hmem => hmark ?_⟩
    exact List.mem_of_mem_take (i := 3) hmem
  all_goals decide

/-! ## Authorities -/

/-- The port that an origin writes out. -/
def givenPort (port : Option ℕ) : Option ℕ := port.filter (· ≠ 443)

/-- The digits of a port that is written out. -/
def portDigits (port : Option ℕ) : List Char :=
  (givenPort port).elim [] fun n => Nat.toDigits 10 n

/-- A host as an authority writes it. -/
def hostText (host : List Char) : List Char :=
  if ':' ∈ host then '[' :: host ++ [']'] else host

/-- A host and a port that are read back. -/
structure Reduced (host : List Char) (port : Option ℕ) : Prop where
  /-- There is a host. -/
  nonempty : host ≠ []
  /-- Its characters are those of hosts. -/
  chars : ∀ c ∈ host, hostChar c = true
  /-- They are in lower case. -/
  lower : host.map lowerChar = host
  /-- A host with a colon may stand in brackets. -/
  bracketed : ':' ∈ host → bracketedHost host = true
  /-- The port is a number of a port. -/
  port : ∀ n ∈ port, n ≠ 0 ∧ n ≤ 65535

theorem authorityText_eq (host : List Char) (port : Option ℕ) :
    authorityText host port =
      hostText host ++ if portDigits port = [] then [] else ':' :: portDigits port := by
  unfold authorityText hostText portDigits givenPort
  rcases port with _ | n
  · simp
  · by_cases hn : n = 443
    · simp [hn, Option.filter_some]
    · simp [hn, Option.filter_some, Nat.toDigits_ne_nil]

@[simp]
theorem authorityText_givenPort (host : List Char) (port : Option ℕ) :
    authorityText host (givenPort port) = authorityText host port := by
  rw [authorityText_eq, authorityText_eq]
  simp [portDigits, givenPort, Option.filter_filter]

theorem isDigit_of_mem_portDigits {port : Option ℕ} {c : Char} (hc : c ∈ portDigits port) :
    c.isDigit = true := by
  unfold portDigits at hc
  rcases h : givenPort port with _ | n
  · simp [h] at hc
  · rw [h] at hc
    exact Nat.isDigit_of_mem_toDigits (by omega) (by omega) hc

/-- A port that is written out is read back. -/
theorem readPort_portDigits {host : List Char} {port : Option ℕ} (h : Reduced host port) :
    readPort (portDigits port) = .ok (givenPort port) := by
  have hdigits : ∀ c ∈ portDigits port, c.isDigit = true := fun _ => isDigit_of_mem_portDigits
  unfold portDigits at hdigits ⊢
  rcases hn : givenPort port with _ | n
  · rfl
  · rw [hn] at hdigits
    have hmem : n ∈ port := Option.eq_some_of_filter_eq_some hn
    rw [Option.elim_some] at hdigits ⊢
    rw [readPort, if_neg Nat.toDigits_ne_nil,
      check_of (List.all_eq_true.mpr hdigits), ok_bind, Nat.ofDigitChars_ten_toDigits,
      check_of (h.port n hmem).2]
    rfl

theorem hostChar_of_isDigit {c : Char} (h : c.isDigit = true) : hostChar c = true := by
  simp [hostChar, h]

theorem ne_colon_of_isDigit {c : Char} (h : c.isDigit = true) : c ≠ ':' := by
  rintro rfl
  exact absurd h (by decide)

/-- A host and what follows it are divided at the colon before the port. -/
theorem divide_port {l : List Char} (h : ':' ∉ l) (port : Option ℕ) :
    divide ':' (l ++ if portDigits port = [] then [] else ':' :: portDigits port) =
      (l, portDigits port) := by
  split
  · rename_i hnil
    rw [List.append_nil, divide_of_notMem h, hnil]
  · exact divide_append h

/-- A mark that is neither in a host nor in a port. -/
theorem notMem_append_port {l : List Char} {port : Option ℕ} {c : Char} (hl : c ∉ l)
    (hcolon : c ≠ ':') (hdigit : c.isDigit = false) :
    c ∉ l ++ if portDigits port = [] then [] else ':' :: portDigits port := by
  rw [List.mem_append, not_or]
  refine ⟨hl, ?_⟩
  split
  · exact List.not_mem_nil
  · rw [List.mem_cons, not_or]
    refine ⟨hcolon, fun hc => ?_⟩
    rw [isDigit_of_mem_portDigits hc] at hdigit
    cases hdigit

/-- The characters of an authority. -/
theorem of_mem_authorityText {host : List Char} {port : Option ℕ} (h : Reduced host port)
    {c : Char} (hc : c ∈ authorityText host port) : hostChar c = true ∨ c = '[' ∨ c = ']' := by
  rw [authorityText_eq, List.mem_append] at hc
  rcases hc with hc | hc
  · unfold hostText at hc
    split at hc
    · simp only [List.cons_append, List.mem_cons, List.mem_append, List.not_mem_nil, or_false] at hc
      rcases hc with rfl | hc | rfl
      · exact .inr (.inl rfl)
      · exact .inl (h.chars c hc)
      · exact .inr (.inr rfl)
    · exact .inl (h.chars c hc)
  · split at hc
    · cases hc
    · rcases List.mem_cons.mp hc with rfl | hc
      · exact .inl (by decide)
      · exact .inl (hostChar_of_isDigit (isDigit_of_mem_portDigits hc))

/-- An authority does not end with a colon. -/
theorem getLast?_authorityText (host : List Char) (port : Option ℕ) :
    (authorityText host port).getLast? ≠ some ':' := by
  rw [authorityText_eq]
  intro hlast
  split at hlast
  · rw [List.append_nil] at hlast
    unfold hostText at hlast
    split at hlast
    · rw [List.getLast?_concat] at hlast
      exact absurd hlast (by decide)
    · rename_i hcolon
      exact hcolon (List.mem_of_getLast? hlast)
  · rename_i hne
    rw [List.getLast?_append, List.getLast?_cons_of_ne_nil hne,
      List.getLast?_eq_getLast_of_ne_nil hne, Option.some_or, Option.some_inj] at hlast
    have hmem := List.getLast_mem hne
    exact ne_colon_of_isDigit (isDigit_of_mem_portDigits hmem) hlast

/-- An authority is read back. -/
theorem readAuthority_authorityText {host : List Char} {port : Option ℕ} (h : Reduced host port) :
    readAuthority (authorityText host port) = .ok (host, givenPort port) := by
  have hmarks : ∀ c ∈ host, c ∉ ['/', '?', '#', '@', '[', ']'] := fun c hc =>
    (of_hostChar (h.chars c hc)).2.2
  have hopen : '[' ∉ host := fun hc => hmarks _ hc (by decide)
  have hclose : ']' ∉ host := fun hc => hmarks _ hc (by decide)
  unfold readAuthority
  by_cases hcolon : ':' ∈ host
  · have htext : authorityText host port = '[' :: (host ++ ']' ::
        if portDigits port = [] then [] else ':' :: portDigits port) := by
      rw [authorityText_eq, hostText, if_pos hcolon]
      simp
    have haccepts : acceptsNetloc (authorityText host port) = true := by
      rw [htext, acceptsNetloc, if_pos List.mem_cons_self, List.tail_cons, divide_append hclose]
      simp only [h.bracketed hcolon]
      split <;> simp
    have hinfo : hostinfo (authorityText host port) = (host, portDigits port) := by
      have hrest := divide_port (l := []) List.not_mem_nil port
      rw [List.nil_append] at hrest
      have hopened (cs : List Char) : divide '[' ('[' :: cs) = ([], cs) :=
        divide_append (l := []) List.not_mem_nil
      rw [htext, hostinfo, if_pos List.mem_cons_self, hopened]
      simp only [divide_append hclose, hrest]
    rw [check_of haccepts, ok_bind, hinfo]
    simp only
    rw [readPort_portDigits h, ok_bind, h.lower]
    rfl
  · have htext : authorityText host port = host ++
        if portDigits port = [] then [] else ':' :: portDigits port := by
      rw [authorityText_eq, hostText, if_neg hcolon]
    have hnot : '[' ∉ authorityText host port ∧ ']' ∉ authorityText host port := by
      rw [htext]
      exact ⟨notMem_append_port hopen (by decide) (by decide),
        notMem_append_port hclose (by decide) (by decide)⟩
    have haccepts : acceptsNetloc (authorityText host port) = true := by
      rw [acceptsNetloc, if_neg hnot.1]
      exact decide_eq_true hnot.2
    have hinfo : hostinfo (authorityText host port) = (host, portDigits port) := by
      rw [hostinfo, if_neg hnot.1, htext, divide_port hcolon]
    rw [check_of haccepts, ok_bind, hinfo]
    simp only
    rw [readPort_portDigits h, ok_bind, h.lower]
    rfl

/-! ## Canonical texts -/

/-- A path has an owner and a name. -/
theorem exists_of_validPath {path : List Char} (h : ValidPath path) :
    ∃ owner name, path = owner ++ '/' :: name ∧ ValidPart owner ∧ ValidPart name := by
  obtain ⟨_, htwo, hparts⟩ := h
  obtain ⟨owner, name, hsplit⟩ := List.length_eq_two.mp htwo
  obtain ⟨hpath, -, -⟩ := Delimited.splitOn_eq_two hsplit
  rw [hsplit] at hparts
  exact ⟨owner, name, hpath, hparts owner (by simp), hparts name (by simp)⟩

/-- The characters of a path are printed, and none of them ends it. -/
theorem of_mem_path {path : List Char} (h : ValidPath path) {c : Char} (hc : c ∈ path) :
    33 ≤ c.toNat ∧ c.toNat ≤ 126 ∧ c ≠ '?' ∧ c ≠ '#' := by
  obtain ⟨owner, name, rfl, ho, hn⟩ := exists_of_validPath h
  have hpart {part : List Char} (hp : ValidPart part) (hc : c ∈ part) :
      33 ≤ c.toNat ∧ c.toNat ≤ 126 ∧ c ≠ '?' ∧ c ≠ '#' := by
    obtain ⟨hlow, hhigh, hmark⟩ := of_pathChar (List.all_eq_true.mp hp.2.2.2 c hc)
    simp only [List.mem_cons, List.not_mem_nil, or_false, not_or] at hmark
    exact ⟨hlow, hhigh, hmark.2⟩
  rcases List.mem_append.mp hc with hc | hc
  · exact hpart ho hc
  · rcases List.mem_cons.mp hc with rfl | hc
    · decide
    · exact hpart hn hc

/-- A path does not end with a slash. -/
theorem getLast?_path {path : List Char} (h : ValidPath path) :
    ('/' :: path).getLast? ≠ some '/' := by
  obtain ⟨owner, name, rfl, -, hn⟩ := exists_of_validPath h
  have hne : name ≠ [] := by
    rintro rfl
    exact hn.2.1 (by decide)
  rw [← List.cons_append, List.getLast?_append, List.getLast?_cons_of_ne_nil hne]
  intro hlast
  rw [List.getLast?_eq_getLast_of_ne_nil hne, Option.some_or, Option.some_inj] at hlast
  have hchar := List.all_eq_true.mp hn.2.2.2 _ (List.getLast_mem hne)
  rw [hlast] at hchar
  exact absurd hchar (by decide)

/-- A canonical URL. -/
def text (host : List Char) (port : Option ℕ) (path : List Char) : List Char :=
  "https://".toList ++ authorityText host port ++ '/' :: path

section

variable {host path : List Char} {port : Option ℕ}

theorem https_toList : "https://".toList = ['h', 't', 't', 'p', 's', ':', '/', '/'] := by
  decide +kernel

theorem text_eq (host : List Char) (port : Option ℕ) (path : List Char) : text host port path =
    'h' :: 't' :: 't' :: 'p' :: 's' :: ':' :: '/' :: '/' ::
      (authorityText host port ++ '/' :: path) := by
  delta text
  rw [https_toList]
  rfl

/-- The characters of a canonical URL are printed. -/
theorem of_mem_text (h : Reduced host port) (hp : ValidPath path) {c : Char}
    (hc : c ∈ text host port path) : 33 ≤ c.toNat ∧ c.toNat ≤ 126 := by
  delta text at hc
  rw [https_toList, List.mem_append, List.mem_append] at hc
  rcases hc with (hc | hc) | hc
  · have hall : ∀ c ∈ ['h', 't', 't', 'p', 's', ':', '/', '/'], 33 ≤ c.toNat ∧ c.toNat ≤ 126 := by
      decide
    exact hall c hc
  · rcases of_mem_authorityText h hc with hc | rfl | rfl
    · exact ⟨(of_hostChar hc).1, (of_hostChar hc).2.1⟩
    · decide
    · decide
  · rcases List.mem_cons.mp hc with rfl | hc
    · decide
    · exact ⟨(of_mem_path hp hc).1, (of_mem_path hp hc).2.1⟩

/-- A canonical URL is split into its parts. -/
theorem urlsplit_text (h : Reduced host port) (hp : ValidPath path) :
    urlsplit (String.ofList (text host port path)) =
      ⟨"https".toList, authorityText host port, '/' :: path, [], []⟩ := by
  have hchars := fun c => of_mem_text h hp (c := c)
  have hfilter : ((text host port path).dropWhile fun c => c.toNat ≤ 32).filter
      (fun c => c ∉ ['\t', '\r', '\n']) = text host port path := by
    have hdrop : (text host port path).dropWhile (fun c => c.toNat ≤ 32) =
        text host port path := by
      rw [text_eq, List.dropWhile_cons_of_neg (by decide)]
    rw [hdrop, List.filter_eq_self]
    intro c hc
    rw [decide_eq_true_eq]
    intro hmem
    have hlow := (hchars c hc).1
    revert hlow
    simp only [List.mem_cons, List.not_mem_nil, or_false] at hmem
    rcases hmem with rfl | rfl | rfl <;> decide
  have hscheme : splitScheme (text host port path) =
      ("https".toList, '/' :: '/' :: (authorityText host port ++ '/' :: path)) := by
    have hdivide : divide ':' (text host port path) =
        (['h', 't', 't', 'p', 's'], '/' :: '/' :: (authorityText host port ++ '/' :: path)) := by
      rw [text_eq]
      exact divide_append (l := ['h', 't', 't', 'p', 's']) (by decide)
    have hcolon : ':' ∈ text host port path := by
      rw [text_eq]
      simp
    rw [splitScheme, hdivide]
    simp only
    rw [if_pos ⟨hcolon, by decide, by decide⟩, Prod.mk.injEq]
    exact ⟨by decide +kernel, rfl⟩
  have hinside : ∀ c ∈ authorityText host port,
      (decide (c ≠ '/') && decide (c ≠ '?') && decide (c ≠ '#')) = true := by
    intro c hc
    rcases of_mem_authorityText h hc with hc | rfl | rfl
    · have hmark := (of_hostChar hc).2.2
      simp only [List.mem_cons, not_or] at hmark
      simp [hmark]
    · decide
    · decide
  have hnetloc : splitNetloc ('/' :: '/' :: (authorityText host port ++ '/' :: path)) =
      (authorityText host port, '/' :: path) := by
    rw [splitNetloc]
    simp only [List.takeWhile_append_of_pos hinside, List.dropWhile_append_of_pos hinside]
    simp
  have hmark {c : Char} (hslash : c ≠ '/') (hnot : c ∉ path) : c ∉ '/' :: path := by
    rw [List.mem_cons, not_or]
    exact ⟨hslash, hnot⟩
  have hfragment : divide '#' ('/' :: path) = ('/' :: path, []) :=
    divide_of_notMem (hmark (by decide) fun hc => (of_mem_path hp hc).2.2.2 rfl)
  have hquery : divide '?' ('/' :: path) = ('/' :: path, []) :=
    divide_of_notMem (hmark (by decide) fun hc => (of_mem_path hp hc).2.2.1 rfl)
  rw [urlsplit, String.toList_ofList, hfilter]
  simp only [hscheme, hnetloc, hfragment, hquery]

/-- The origin of a canonical URL. -/
theorem httpsOrigin_text (h : Reduced host port) (hp : ValidPath path) :
    httpsOrigin (String.ofList (text host port path)) =
      .ok ("https://".toList ++ authorityText host port) := by
  have hat : '@' ∉ authorityText host port := by
    intro hc
    rcases of_mem_authorityText h hc with hc | hc | hc
    · exact absurd hc (by decide)
    · exact absurd hc (by decide)
    · exact absurd hc (by decide)
  have hport : givenPort port ≠ some 0 := fun hzero =>
    (h.port 0 (Option.eq_some_of_filter_eq_some hzero)).1 rfl
  rw [httpsOrigin, urlsplit_text h hp]
  have hkept : True ∧ host ≠ [] ∧ '@' ∉ authorityText host port ∧ True ∧ True ∧
      host.all hostChar = true :=
    ⟨trivial, h.nonempty, hat, trivial, trivial, List.all_eq_true.mpr h.chars⟩
  simp only [readAuthority_authorityText h, ok_bind]
  rw [check_of hkept, ok_bind, check_of hport, ok_bind, authorityText_givenPort]
  rfl

/-- The canonical form of a canonical URL: its path may lose a suffix. -/
theorem canonicalRepository_text (h : Reduced host port) (hp : ValidPath path) :
    canonicalRepository (String.ofList (text host port path)) =
      (do
        check (ValidPath (removeGit path)) mismatch
        return String.ofList (text host port (removeGit path))) := by
  have hprinted : ∀ c ∈ (String.ofList (text host port path)).toList,
      33 ≤ c.toNat ∧ c.toNat ≠ 127 := by
    intro c hc
    rw [String.toList_ofList] at hc
    obtain ⟨hlow, hhigh⟩ := of_mem_text h hp hc
    exact ⟨hlow, by omega⟩
  rw [canonicalRepository, check_of hprinted, ok_bind, httpsOrigin_text h hp, urlsplit_text h hp,
    check_of (getLast?_authorityText host port), ok_bind, ok_bind]
  have hslash : ('/' :: path).head? = some '/' ∧ ('/' :: path).getLast? ≠ some '/' :=
    ⟨rfl, getLast?_path hp⟩
  simp only
  rw [check_of hslash, ok_bind, List.tail_cons, repositoryPath]
  simp only [bind_assoc, pure_bind]
  rfl

end

/-! ## Accepted URLs -/

/-- A host in brackets stays one in lower case. -/
theorem bracketedHost_lower {host : List Char} (h : bracketedHost host = true) :
    bracketedHost (host.map lowerChar) = true := by
  have hlower : (host.map lowerChar).map lowerChar = host.map lowerChar := by
    simp [Function.comp_def]
  unfold bracketedHost at h ⊢
  rw [hlower]
  simp only [Bool.or_eq_true, Bool.and_eq_true, beq_iff_eq] at h ⊢
  refine h.imp (fun ⟨hv, hfuture⟩ => ⟨?_, hfuture⟩) id
  rw [List.head?_map, hv]
  decide

/-- What an authority is read as: a host in lower case, which may stand in brackets. -/
theorem of_readAuthority {netloc host : List Char} {port : Option ℕ}
    (h : readAuthority netloc = .ok (host, port)) :
    host.map lowerChar = host ∧ (':' ∈ host → bracketedHost host = true) ∧
      ∀ n ∈ port, n ≤ 65535 := by
  unfold readAuthority at h
  obtain ⟨haccepts, h⟩ := check_bind_eq_ok.mp h
  rcases hinfo : hostinfo netloc with ⟨raw, digits⟩
  simp only [hinfo] at h
  obtain ⟨p, hport, h⟩ := bind_eq_ok.mp h
  rw [pure_eq_ok, Prod.mk.injEq] at h
  obtain ⟨rfl, rfl⟩ := h
  refine ⟨by simp [Function.comp_def], fun hcolon => bracketedHost_lower ?_, ?_⟩
  · have hraw : ':' ∈ raw := by
      obtain ⟨c, hc, hlow⟩ := List.mem_map.mp hcolon
      exact lowerChar_eq_colon hlow ▸ hc
    unfold hostinfo at hinfo
    unfold acceptsNetloc at haccepts
    split at hinfo
    · rename_i hopen
      rw [if_pos hopen] at haccepts
      rcases netloc with _ | ⟨c, rest⟩
      · cases hopen
      · simp only [List.head?_cons, List.tail_cons, Bool.and_eq_true, beq_iff_eq,
          Option.some_inj] at haccepts
        obtain ⟨⟨⟨rfl, -⟩, -⟩, hhost⟩ := haccepts
        have hopened : divide '[' ('[' :: rest) = ([], rest) :=
          divide_append (l := []) List.not_mem_nil
        rw [hopened, Prod.mk.injEq] at hinfo
        rwa [← hinfo.1]
    · rw [divide, Prod.mk.injEq] at hinfo
      rw [← hinfo.1] at hraw
      exact absurd (List.mem_takeWhile_imp hraw) (by decide)
  · intro n hn
    unfold readPort at hport
    split at hport
    · rw [Except.ok.injEq] at hport
      subst hport
      cases hn
    · obtain ⟨-, hport⟩ := check_bind_eq_ok.mp hport
      obtain ⟨hle, hport⟩ := check_bind_eq_ok.mp hport
      rw [pure_eq_ok] at hport
      subst hport
      cases hn
      exact hle

/-- The origin of a URL has a host and a port that are read back. -/
theorem httpsOrigin_eq_ok {url : String} {origin : List Char} (h : httpsOrigin url = .ok origin) :
    ∃ host port, Reduced host port ∧ origin = "https://".toList ++ authorityText host port := by
  unfold httpsOrigin at h
  obtain ⟨⟨host, port⟩, hread, h⟩ := bind_eq_ok.mp h
  obtain ⟨hkept, h⟩ := check_bind_eq_ok.mp h
  obtain ⟨hzero, h⟩ := check_bind_eq_ok.mp h
  obtain ⟨hlower, hbracketed, hport⟩ := of_readAuthority hread
  refine ⟨host, port, ⟨hkept.2.1, List.all_eq_true.mp hkept.2.2.2.2.2, hlower, hbracketed, ?_⟩,
    (pure_eq_ok.mp h).symm⟩
  intro n hn
  refine ⟨?_, hport n hn⟩
  rintro rfl
  exact hzero hn

/-- An accepted URL has a host, a port and a path that are read back. -/
theorem canonicalRepository_eq_ok {url c : String} (h : canonicalRepository url = .ok c) :
    ∃ host port path, Reduced host port ∧ (urlsplit url).path = '/' :: path ∧
      ValidPath (removeGit path) ∧ c = String.ofList (text host port (removeGit path)) := by
  unfold canonicalRepository at h
  obtain ⟨-, h⟩ := check_bind_eq_ok.mp h
  obtain ⟨-, h⟩ := check_bind_eq_ok.mp h
  obtain ⟨origin, horigin, h⟩ := bind_eq_ok.mp h
  obtain ⟨host, port, hreduced, rfl⟩ := httpsOrigin_eq_ok horigin
  obtain ⟨hslash, h⟩ := check_bind_eq_ok.mp h
  obtain ⟨path, hpath, h⟩ := bind_eq_ok.mp h
  obtain ⟨hvalid, hpath⟩ := check_bind_eq_ok.mp hpath
  rw [pure_eq_ok] at hpath h
  subst hpath
  obtain ⟨rest, hrest⟩ : ∃ rest, (urlsplit url).path = '/' :: rest := by
    rcases hcs : (urlsplit url).path with _ | ⟨a, rest⟩
    · rw [hcs] at hslash
      cases hslash.1
    · rw [hcs, List.head?_cons, Option.some_inj] at hslash
      exact ⟨rest, by rw [hslash.1]⟩
  rw [hrest, List.tail_cons] at h hvalid
  exact ⟨host, port, rest, hreduced, hrest, hvalid, h.symm⟩

/-! ## Suffixes -/

theorem removeGit_append (path : List Char) : removeGit (path ++ ".git".toList) = path := by
  have hlength : ".git".toList.length = 4 := by decide
  rw [removeGit, if_pos (List.suffix_append _ _), List.length_append, hlength,
    Nat.add_sub_cancel, List.take_left]

theorem removeGit_of_not {path : List Char} (h : ¬".git".toList <:+ path) :
    removeGit path = path := if_neg h

/-- A path loses its suffix once more when it ends with it twice. -/
theorem suffix_removeGit {path : List Char} :
    ".git".toList <:+ removeGit path ↔ ".git.git".toList <:+ path := by
  have htwice : ".git.git".toList = ".git".toList ++ ".git".toList := by decide
  rw [htwice]
  constructor
  · intro h
    by_cases hgit : ".git".toList <:+ path
    · obtain ⟨rest, rfl⟩ := hgit
      rw [removeGit_append] at h
      obtain ⟨rest', rfl⟩ := h
      exact ⟨rest', by rw [List.append_assoc]⟩
    · rw [removeGit_of_not hgit] at h
      exact absurd h hgit
  · rintro ⟨rest, rfl⟩
    rw [← List.append_assoc, removeGit_append]
    exact List.suffix_append _ _

/-- The canonical form of an accepted URL is its own exactly if its path does not end with the
suffix twice. -/
theorem canonicalRepository_idempotent_iff {url c : String}
    (h : canonicalRepository url = .ok c) :
    canonicalRepository c = .ok c ↔ ¬".git.git".toList <:+ (urlsplit url).path := by
  obtain ⟨host, port, path, hreduced, hpath, hvalid, rfl⟩ := canonicalRepository_eq_ok h
  have hsuffix : ".git.git".toList <:+ '/' :: path ↔ ".git".toList <:+ removeGit path := by
    rw [suffix_removeGit, List.suffix_cons_iff, or_iff_right]
    intro heq
    have hhead := congrArg List.head? heq
    exact absurd hhead (by simp)
  rw [hpath, hsuffix, canonicalRepository_text hreduced hvalid]
  refine ⟨?_, ?_⟩
  · intro hok hgit
    obtain ⟨-, heq⟩ := check_bind_eq_ok.mp hok
    rw [pure_eq_ok, String.ofList_inj] at heq
    delta text at heq
    have hshort := List.append_cancel_left heq
    obtain ⟨rest, hrest⟩ := hgit
    rw [← hrest, removeGit_append, List.cons.injEq] at hshort
    have hlength := congrArg List.length hshort.2
    have hfour : ".git".toList.length = 4 := by decide
    rw [List.length_append, hfour] at hlength
    omega
  · intro hgit
    rw [removeGit_of_not hgit, check_of hvalid, ok_bind]
    rfl

/-! ## Identities -/

section

variable [Sha256]

/-- Two accepted URLs, however often they were reduced, have the same location, lock and record of
ownership if they have one canonical form, and different ones otherwise. -/
def Identified (u v cu cv : String) : Prop :=
  ∀ w ∈ [u, cu], ∀ x ∈ [v, cv], ∀ (root : Json) (inode : String → Json),
    (cu = cv → sourceCacheKey w = sourceCacheKey x ∧ lockName w = lockName x ∧
      ownership root inode w = ownership root inode x) ∧
    (cu ≠ cv → sourceCacheKey w ≠ sourceCacheKey x ∧ lockName w ≠ lockName x ∧
      ownership root inode w ≠ ownership root inode x)

/-- The location of a URL with a canonical form of its own. -/
theorem sourceCacheKey_eq {url : String} {host path : List Char} {port : Option ℕ}
    (hc : canonicalRepository url = .ok (String.ofList (text host port path)))
    (h : Reduced host port) (hp : ValidPath path) :
    sourceCacheKey url = .ok (["v2", (Sha256.hexdigest (String.ofList
      ("https://".toList ++ authorityText host port))).val] ++
        (path.splitOn '/').map String.ofList) := by
  unfold sourceCacheKey
  simp only [hc, ok_bind, httpsOrigin_text h hp, urlsplit_text h hp, List.tail_cons]
  rw [pure_eq_ok]

/-- The name of the lock of a URL. -/
theorem lockName_eq {url c : String} (hc : canonicalRepository url = .ok c) :
    lockName url = .ok (Sha256.hexdigest c).val := by
  rw [lockName, hc, ok_bind, pure_eq_ok]

/-- The record of ownership of a URL. -/
theorem ownership_eq {url c : String} {key : List String} (hc : canonicalRepository url = .ok c)
    (hkey : sourceCacheKey url = .ok key) (root : Json) (inode : String → Json) :
    ownership root inode url = .ok (.obj [("location", .arr (key.map .str)),
      ("lock", inode (Sha256.hexdigest c).val), ("repository", .str c), ("root", root),
      ("schema", .int 2)]) := by
  rw [ownership, hc, ok_bind, hkey, ok_bind, lockName_eq hc, ok_bind, pure_eq_ok]

/-- The identities are computed from the canonical form alone, and tell canonical forms apart. -/
theorem identified (hsha : Function.Injective Sha256.hexdigest) {u v cu cv : String}
    (hu : canonicalRepository u = .ok cu) (hv : canonicalRepository v = .ok cv)
    (hcu : canonicalRepository cu = .ok cu) (hcv : canonicalRepository cv = .ok cv) :
    Identified u v cu cv := by
  intro w hw x hx root inode
  have hwu : canonicalRepository w = .ok cu := by
    simp only [List.mem_cons, List.not_mem_nil, or_false] at hw
    rcases hw with rfl | rfl
    · exact hu
    · exact hcu
  have hxv : canonicalRepository x = .ok cv := by
    simp only [List.mem_cons, List.not_mem_nil, or_false] at hx
    rcases hx with rfl | rfl
    · exact hv
    · exact hcv
  obtain ⟨host, port, path, hreduced, -, hvalid, rfl⟩ := canonicalRepository_eq_ok hu
  obtain ⟨host', port', path', hreduced', -, hvalid', rfl⟩ := canonicalRepository_eq_ok hv
  have hkey := sourceCacheKey_eq hwu hreduced hvalid
  have hkey' := sourceCacheKey_eq hxv hreduced' hvalid'
  constructor
  · intro heq
    have hxu := hxv
    rw [← heq] at hxu
    have hkeyu := sourceCacheKey_eq hxu hreduced hvalid
    refine ⟨hkey.trans hkeyu.symm, ?_, ?_⟩
    · rw [lockName_eq hwu, lockName_eq hxu]
    · rw [ownership_eq hwu hkey, ownership_eq hxu hkeyu]
  · intro hne
    refine ⟨fun heq => hne ?_, fun heq => hne ?_, fun heq => hne ?_⟩
    · -- The owner and the name have no slash, so the parts of the location determine the path.
      rw [hkey, hkey', Except.ok.injEq] at heq
      simp only [List.cons_append, List.nil_append, List.cons.injEq, true_and] at heq
      have horigin := String.ofList_inj.mp (hsha (Subtype.ext heq.1))
      have hparts := List.map_injective_iff.mpr (fun _ _ => String.ofList_inj.mp) heq.2
      have hpath : removeGit path = removeGit path' := by
        have hjoin (text : List Char) : ['/'].intercalate (text.splitOn '/') = text :=
          List.intercalate_splitOn '/'
        rw [← hjoin (removeGit path), hparts, hjoin]
      delta text
      rw [horigin, hpath]
    · rw [lockName_eq hwu, lockName_eq hxv, Except.ok.injEq] at heq
      exact hsha (Subtype.ext heq)
    · rw [ownership_eq hwu hkey, ownership_eq hxv hkey', Except.ok.injEq, Json.obj.injEq] at heq
      simp only [List.cons.injEq, Prod.mk.injEq, Json.str.injEq, true_and] at heq
      exact heq.2.2.1

/-- Canonical forms are kept by a second reduction, and their identities tell the accepted URLs
apart, exactly for URLs whose paths do not end with the suffix twice. -/
theorem cache_identity_canonical (hsha : Function.Injective Sha256.hexdigest) {u v cu cv : String}
    (hu : canonicalRepository u = .ok cu) (hv : canonicalRepository v = .ok cv) :
    (canonicalRepository cu = .ok cu ∧ canonicalRepository cv = .ok cv ∧ Identified u v cu cv) ↔
      ¬".git.git".toList <:+ (urlsplit u).path ∧ ¬".git.git".toList <:+ (urlsplit v).path := by
  rw [← canonicalRepository_idempotent_iff hu, ← canonicalRepository_idempotent_iff hv]
  exact ⟨fun h => ⟨h.1, h.2.1⟩, fun h => ⟨h.1, h.2, identified hsha hu hv h.1 h.2⟩⟩

end

/-- Two URLs of one repository. -/
theorem cache_identity_canonical_port :
    @Identified Sample.distinct "https://Forge.invalid:443/team/project.git"
      "https://forge.invalid/team/project" "https://forge.invalid/team/project"
      "https://forge.invalid/team/project" :=
  ((@cache_identity_canonical Sample.distinct Sample.distinct_injective _ _ _ _
    (by decide +kernel) (by decide +kernel)).mpr ⟨by decide +kernel, by decide +kernel⟩).2.2

/-- A URL that ends with the suffix twice has a canonical form that is reduced further, and a lock
beside the one of its canonical form. -/
theorem double_suffix :
    canonicalRepository "https://forge.invalid/team/project.git.git" =
        .ok "https://forge.invalid/team/project.git" ∧
      canonicalRepository "https://forge.invalid/team/project.git" =
        .ok "https://forge.invalid/team/project" ∧
      ¬@Identified Sample.distinct "https://forge.invalid/team/project.git.git"
        "https://forge.invalid/team/project.git.git" "https://forge.invalid/team/project.git"
        "https://forge.invalid/team/project.git" := by
  have honce : canonicalRepository "https://forge.invalid/team/project.git.git" =
      .ok "https://forge.invalid/team/project.git" := by decide +kernel
  have htwice : canonicalRepository "https://forge.invalid/team/project.git" =
      .ok "https://forge.invalid/team/project" := by decide +kernel
  refine ⟨honce, htwice, fun h => ?_⟩
  have hlock := ((h _ (List.mem_cons_self) _ (List.mem_cons_of_mem _ List.mem_cons_self) .null
    fun _ => .null).1 rfl).2.1
  rw [@lockName_eq Sample.distinct _ _ honce, @lockName_eq Sample.distinct _ _ htwice,
    Except.ok.injEq] at hlock
  exact absurd (Sample.distinct_injective (Subtype.ext hlock)) (by decide)

end Source

end CreatidyKernel
