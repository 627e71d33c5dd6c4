import Mathlib.Tactic
import CreatidyKernel.Lib.SortedBy

set_option relaxedAutoImplicit false
set_option autoImplicit false

/-!
# Layered topological order, and tables filled along an order

A graph lists each node with its predecessors. The order is computed by layers: all nodes
without remaining predecessors, sorted, are taken out together, until nothing remains or
every remaining node waits for another one. An order in which predecessors come first is what
a table may be filled along when each entry depends only on the entries of the predecessors;
such a table is the fixed point of its local rule.

## Main definitions

* `Layers.topologicalOrder` — the layered order, or the nodes that lie on or behind a cycle.
* `Layers.Respects` — every node of a list comes after its predecessors.
* `Layers.tabulate` — fill a table along a list of nodes by a local rule that may fail.

## Main results

* `Layers.topologicalOrder_respects`, `Layers.mem_topologicalOrder` — a returned order lists
  every node once, after its predecessors.
* `Layers.exists_topologicalOrder_iff` — there is one exactly when every predecessor is a node
  and nothing depends on itself; `Layers.loop_of_le` — the search for it ends.
* `Layers.Respects.forall_of_step` — induction along an order.
* `Layers.tabulate_spec` — the table is a fixed point of the rule; `Layers.tabulate_total` —
  it exists when the rule never fails on good predecessors.
-/

namespace CreatidyKernel

namespace Layers

/-! ## Orders that respect predecessors -/

/-- Every node of the list has its predecessors among the nodes done before it. -/
def Respects {κ : Type} (R : κ → κ → Prop) : List κ → List κ → Prop
  | _, [] => True
  | done, n :: rest => (∀ d, R n d → d ∈ done) ∧ Respects R (n :: done) rest

namespace Respects

variable {κ : Type} {R R' : κ → κ → Prop}

/-- More nodes may be done already, and predecessors that are done do not count. -/
theorem mono {done done' order : List κ} (h : Respects R' done' order) (hd : done' ⊆ done)
    (hR : ∀ n ∈ order, ∀ d, R n d → d ∈ done ∨ R' n d) : Respects R done order := by
  induction order generalizing done done' with
  | nil => trivial
  | cons n rest ih =>
    refine ⟨fun d hr => ?_, ih h.2 ?_ ?_⟩
    · rcases hR n List.mem_cons_self d hr with hd' | hr'
      · exact hd'
      · exact hd (h.1 d hr')
    · exact List.cons_subset_cons n hd
    · intro m hm d hr
      exact (hR m (List.mem_cons_of_mem _ hm) d hr).imp_left (List.mem_cons_of_mem _)

/-- Nodes without predecessors come first. -/
theorem append {done layer rest : List κ} (hl : ∀ n ∈ layer, ∀ d, ¬R n d)
    (h : Respects R (layer ++ done) rest) : Respects R done (layer ++ rest) := by
  induction layer generalizing done with
  | nil => simpa using h
  | cons n layer ih =>
    refine ⟨fun d hr => absurd hr (hl n List.mem_cons_self d), ?_⟩
    refine ih (fun m hm => hl m (List.mem_cons_of_mem _ hm)) (h.mono ?_ fun m _ d hr => .inr hr)
    intro a ha
    simp only [List.cons_append, List.mem_cons, List.mem_append] at ha ⊢
    tauto

/-- Induction along an order: what holds of a node as soon as it holds of its predecessors
holds of every node. -/
theorem forall_of_step {P : κ → Prop} {done order : List κ} (h : Respects R done order)
    (hdone : ∀ d ∈ done, P d) (step : ∀ n ∈ order, (∀ d, R n d → P d) → P n) :
    ∀ n ∈ order, P n := by
  induction order generalizing done with
  | nil => simp
  | cons m rest ih =>
    have hm : P m := step m List.mem_cons_self fun d hr => hdone d (h.1 d hr)
    intro n hn
    rcases List.mem_cons.1 hn with rfl | hn
    · exact hm
    · refine ih h.2 ?_ (fun k hk => step k (List.mem_cons_of_mem _ hk)) n hn
      intro d hd
      rcases List.mem_cons.1 hd with rfl | hd
      exacts [hm, hdone d hd]

/-- No node of an order depends on itself through others. -/
theorem acyclic {order : List κ} (h : Respects R [] order) :
    ∀ n ∈ order, ∀ m, Relation.ReflTransGen R n m → ¬R m n := by
  refine h.forall_of_step (by simp) fun n _ ih m hm hr => ?_
  rcases Relation.ReflTransGen.cases_head hm with rfl | ⟨d, hd, hdm⟩
  · exact ih n hr n .refl hr
  · exact ih d hd n (hdm.tail hr) hd

/-- A predecessor is done already or stands before its node. -/
theorem idxOf_lt [BEq κ] [LawfulBEq κ] {done order : List κ} (h : Respects R done order) {n d : κ}
    (hn : n ∈ order) (hr : R n d) : d ∈ done ∨ order.idxOf d < order.idxOf n := by
  induction order generalizing done with
  | nil => cases hn
  | cons m rest ih =>
    by_cases hm : n = m
    · subst hm
      exact .inl (h.1 d hr)
    · have hrest := ih h.2 ((List.mem_cons.1 hn).resolve_left hm)
      have hpos : (m :: rest).idxOf n = rest.idxOf n + 1 := List.idxOf_cons_ne _ (Ne.symm hm)
      by_cases hd : d = m
      · subst hd
        exact .inr (by rw [List.idxOf_cons_self, hpos]; omega)
      · rcases hrest with hdone | hlt
        · exact .inl ((List.mem_cons.1 hdone).resolve_left hd)
        · exact .inr (by rw [List.idxOf_cons_ne _ (Ne.symm hd), hpos]; omega)

/-- Predecessors of the nodes of an order that begins with nothing done are nodes of it. -/
theorem mem [BEq κ] [LawfulBEq κ] {order : List κ} (h : Respects R [] order) {n d : κ} (hn : n ∈ order)
    (hr : R n d) : d ∈ order := by
  rcases h.idxOf_lt hn hr with hd | hd
  · cases hd
  · exact List.idxOf_lt_length_iff.1 (lt_of_lt_of_le hd List.idxOf_le_length)

end Respects

section Order

variable {κ : Type} [LinearOrder κ]

/-! ## The layered order -/

/-- The nodes without remaining predecessors, sorted. -/
def ready (g : List (κ × List κ)) : List κ :=
  ((g.filter fun n => n.2.isEmpty).map Prod.fst).insertionSort (· ≤ ·)

/-- Take a layer out of the graph. -/
def prune (layer : List κ) (g : List (κ × List κ)) : List (κ × List κ) :=
  (g.filter fun n => n.1 ∉ layer).map fun n => (n.1, n.2.filter (· ∉ layer))

/-- Repeat taking out layers; the error lists the nodes that remain. -/
def loop : ℕ → List (κ × List κ) → Except (List κ) (List κ)
  | _, [] => .ok []
  | 0, g => .error ((g.map Prod.fst).insertionSort (· ≤ ·))
  | fuel + 1, g =>
    if ready g = [] then .error ((g.map Prod.fst).insertionSort (· ≤ ·))
    else (loop fuel (prune (ready g) g)).map (ready g ++ ·)

/-- The layered topological order. -/
def topologicalOrder (g : List (κ × List κ)) : Except (List κ) (List κ) := loop g.length g

theorem mem_ready {g : List (κ × List κ)} {n : κ} : n ∈ ready g ↔ (n, []) ∈ g := by
  simp [ready]

theorem nodup_ready {g : List (κ × List κ)} (h : (g.map Prod.fst).Nodup) : (ready g).Nodup :=
  (List.perm_insertionSort _ _).nodup_iff.2 ((List.filter_sublist.map Prod.fst).nodup h)

theorem prune_perm {g g' : List (κ × List κ)} (layer : List κ) (h : g.Perm g') :
    (prune layer g).Perm (prune layer g') := (h.filter _).map _

theorem map_fst_prune (layer : List κ) (g : List (κ × List κ)) :
    (prune layer g).map Prod.fst = (g.map Prod.fst).filter fun n => n ∉ layer := by
  simp only [prune, List.map_map, List.filter_map]
  rfl

theorem loop_succ {fuel : ℕ} {g : List (κ × List κ)} {order : List κ} (hg : g ≠ [])
    (h : loop (fuel + 1) g = .ok order) :
    ∃ rest, loop fuel (prune (ready g) g) = .ok rest ∧ order = ready g ++ rest := by
  cases g with
  | nil => exact absurd rfl hg
  | cons n g =>
    rw [loop] at h
    · split_ifs at h
      cases hr : loop fuel (prune (ready (n :: g)) (n :: g)) with
      | error e => rw [hr] at h; cases h
      | ok rest => rw [hr] at h; exact ⟨rest, rfl, (Except.ok.inj h).symm⟩
    · exact hg

/-- A returned order lists the nodes of the graph, each once. -/
theorem loop_mem (fuel : ℕ) (g : List (κ × List κ)) (order : List κ)
    (hn : (g.map Prod.fst).Nodup) (h : loop fuel g = .ok order) :
    order.Nodup ∧ ∀ n, n ∈ order ↔ n ∈ g.map Prod.fst := by
  induction fuel generalizing g order with
  | zero =>
    cases g with
    | nil => obtain rfl := Except.ok.inj h; simp
    | cons n g => cases h
  | succ fuel ih =>
    by_cases hg : g = []
    · subst hg
      obtain rfl := Except.ok.inj h
      simp
    · obtain ⟨rest, hr, rfl⟩ := loop_succ hg h
      have hkeys := map_fst_prune (ready g) g
      obtain ⟨hnd, hmem⟩ := ih _ _ (by rw [hkeys]; exact hn.filter _) hr
      have hrest : ∀ n, n ∈ rest ↔ n ∈ g.map Prod.fst ∧ n ∉ ready g := fun n => by
        rw [hmem, hkeys]; simp
      refine ⟨List.nodup_append.2 ⟨nodup_ready hn, hnd, ?_⟩, fun n => ?_⟩
      · rintro a ha b hb rfl
        exact ((hrest a).1 hb).2 ha
      · rw [List.mem_append, hrest]
        constructor
        · rintro (h | h)
          · exact List.mem_map.2 ⟨_, mem_ready.1 h, rfl⟩
          · exact h.1
        · intro h
          by_cases hr : n ∈ ready g
          · exact .inl hr
          · exact .inr ⟨h, hr⟩

/-! ## A layered order respects predecessors -/

/-- The predecessor relation a graph lists. -/
def Edge (g : List (κ × List κ)) (n d : κ) : Prop := ∃ ds, (n, ds) ∈ g ∧ d ∈ ds

/-- A returned order respects the predecessors of the graph. -/
theorem loop_respects (fuel : ℕ) (g : List (κ × List κ)) (order : List κ)
    (hn : (g.map Prod.fst).Nodup) (h : loop fuel g = .ok order) :
    Respects (Edge g) [] order := by
  induction fuel generalizing g order with
  | zero =>
    cases g with
    | nil => obtain rfl := Except.ok.inj h; trivial
    | cons n g => cases h
  | succ fuel ih =>
    by_cases hg : g = []
    · subst hg
      obtain rfl := Except.ok.inj h
      trivial
    · obtain ⟨rest, hr, rfl⟩ := loop_succ hg h
      have hkeys := map_fst_prune (ready g) g
      have hnp : ((prune (ready g) g).map Prod.fst).Nodup := by rw [hkeys]; exact hn.filter _
      refine Respects.append (fun n hready d => ?_) ((ih _ _ hnp hr).mono (by simp) ?_)
      · rintro ⟨ds, hmem, hd⟩
        have heq := List.inj_on_of_nodup_map hn hmem (mem_ready.1 hready) rfl
        simp only [Prod.mk.injEq, true_and] at heq
        simp [heq] at hd
      · rintro n hrest d ⟨ds, hmem, hd⟩
        have hnr : n ∉ ready g := by
          have := ((loop_mem _ _ _ hnp hr).2 n).1 hrest
          rw [hkeys] at this
          simpa using (List.mem_filter.1 this).2
        by_cases hdr : d ∈ ready g
        · exact .inl (by simpa using hdr)
        · refine .inr ⟨ds.filter (· ∉ ready g), ?_, by simp [hd, hdr]⟩
          exact List.mem_map.2 ⟨(n, ds), by simp [hmem, hnr], rfl⟩

/-- A topological order lists every node of the graph once. -/
theorem mem_topologicalOrder {g : List (κ × List κ)} {order : List κ}
    (hn : (g.map Prod.fst).Nodup) (h : topologicalOrder g = .ok order) :
    order.Nodup ∧ ∀ n, n ∈ order ↔ n ∈ g.map Prod.fst := loop_mem _ _ _ hn h

/-- In a topological order every node comes after its predecessors. -/
theorem topologicalOrder_respects {g : List (κ × List κ)} {order : List κ}
    (hn : (g.map Prod.fst).Nodup) (h : topologicalOrder g = .ok order) :
    Respects (Edge g) [] order := loop_respects _ _ _ hn h

/-! ## Which graphs have an order -/

/-- A layer takes nodes out of the graph. -/
theorem length_prune_lt {g : List (κ × List κ)} (h : ready g ≠ []) :
    (prune (ready g) g).length < g.length := by
  obtain ⟨n, hn⟩ := List.exists_mem_of_ne_nil _ h
  rw [prune, List.length_map]
  refine lt_of_le_of_ne (List.length_filter_le _ _) fun he => ?_
  have hall := List.length_filter_eq_length_iff.1 he _ (mem_ready.1 hn)
  exact absurd hn (by simpa using hall)

/-- The loop ends by itself: more rounds than nodes change nothing. -/
theorem loop_of_le {fuel : ℕ} {g : List (κ × List κ)} (h : g.length ≤ fuel) :
    loop fuel g = topologicalOrder g := by
  have main : ∀ fuel fuel' (g : List (κ × List κ)), g.length ≤ fuel → g.length ≤ fuel' →
      loop fuel g = loop fuel' g := by
    intro fuel
    induction fuel with
    | zero =>
      intro fuel' g h h'
      obtain rfl := List.eq_nil_of_length_eq_zero (Nat.le_zero.1 h)
      cases fuel' <;> rfl
    | succ fuel ih =>
      intro fuel' g h h'
      cases g with
      | nil => cases fuel' <;> rfl
      | cons n g =>
        cases fuel' with
        | zero => exact absurd h' (by simp)
        | succ fuel' =>
          rw [loop, loop]
          · split_ifs with hr
            · rfl
            · have hlt := length_prune_lt hr
              rw [ih fuel' _ (by omega) (by omega)]
          all_goals simp
  exact main _ _ _ h le_rfl

/-- Every predecessor is a node. -/
def Closed (g : List (κ × List κ)) : Prop := ∀ n d, Edge g n d → d ∈ g.map Prod.fst

/-- An edge of a graph without a layer is an edge of the graph. -/
theorem edge_of_prune {layer : List κ} {g : List (κ × List κ)} {n d : κ}
    (h : Edge (prune layer g) n d) : Edge g n d ∧ n ∉ layer ∧ d ∉ layer := by
  obtain ⟨ds, hmem, hd⟩ := h
  obtain ⟨⟨m, es⟩, hm, he⟩ := List.mem_map.1 hmem
  obtain ⟨rfl, rfl⟩ := Prod.mk.inj he
  obtain ⟨hmg, hml⟩ := List.mem_filter.1 hm
  obtain ⟨hde, hdl⟩ := List.mem_filter.1 hd
  exact ⟨⟨es, hmg, hde⟩, by simpa using hml, by simpa using hdl⟩

/-- Taking a layer out keeps a graph closed. -/
theorem Closed.prune {layer : List κ} {g : List (κ × List κ)} (h : Closed g) :
    Closed (prune layer g) := by
  intro n d he
  obtain ⟨hedge, -, hd⟩ := edge_of_prune he
  rw [map_fst_prune, List.mem_filter]
  exact ⟨h n d hedge, by simpa using hd⟩

/-- A graph without a cycle that is not empty has a node without predecessors.

**Proof idea.** On the finitely many nodes the transitive closure of the edges is well founded;
a minimal node has no predecessor. -/
theorem ready_ne_nil {g : List (κ × List κ)} (hg : g ≠ []) (hc : Closed g)
    (ha : ∀ n, ¬Relation.TransGen (Edge g) n n) : ready g ≠ [] := by
  obtain ⟨⟨n, ds⟩, hn⟩ := List.exists_mem_of_ne_nil _ hg
  have hwf : WellFounded fun a b : {n // n ∈ g.map Prod.fst} =>
      Relation.TransGen (Edge g) b.1 a.1 := by
    have htrans : IsTrans {n // n ∈ g.map Prod.fst} fun a b =>
        Relation.TransGen (Edge g) b.1 a.1 := ⟨fun _ _ _ hab hbc => hbc.trans hab⟩
    have hirrefl : Std.Irrefl fun a b : {n // n ∈ g.map Prod.fst} =>
        Relation.TransGen (Edge g) b.1 a.1 := ⟨fun a => ha a.1⟩
    exact Finite.wellFounded_of_trans_of_irrefl _
  obtain ⟨⟨m, hm⟩, -, hmin⟩ := hwf.has_min Set.univ
    ⟨⟨n, List.mem_map_of_mem hn⟩, trivial⟩
  obtain ⟨⟨m', es⟩, hmem, rfl⟩ := List.mem_map.1 hm
  have hes : es = [] := by
    rw [List.eq_nil_iff_forall_not_mem]
    intro d hd
    have hedge : Edge g m' d := ⟨es, hmem, hd⟩
    exact hmin ⟨d, hc _ _ hedge⟩ trivial (.single hedge)
  subst hes
  exact List.ne_nil_of_mem (mem_ready.2 hmem)

/-- A closed graph without a cycle has an order. -/
theorem loop_total (fuel : ℕ) (g : List (κ × List κ)) (hf : g.length ≤ fuel) (hc : Closed g)
    (ha : ∀ n, ¬Relation.TransGen (Edge g) n n) : ∃ order, loop fuel g = .ok order := by
  induction fuel generalizing g with
  | zero =>
    obtain rfl := List.eq_nil_of_length_eq_zero (Nat.le_zero.1 hf)
    exact ⟨[], rfl⟩
  | succ fuel ih =>
    cases g with
    | nil => exact ⟨[], rfl⟩
    | cons n g =>
      have hr := ready_ne_nil (List.cons_ne_nil n g) hc ha
      have hlt := length_prune_lt hr
      obtain ⟨rest, hrest⟩ := ih (prune (ready (n :: g)) (n :: g)) (by omega) hc.prune
        fun m hm => ha m (Relation.TransGen.mono (fun _ _ he => (edge_of_prune he).1) _ _ hm)
      refine ⟨ready (n :: g) ++ rest, ?_⟩
      rw [loop]
      · rw [if_neg hr, hrest]
        rfl
      · simp

/-- An order exists exactly when every predecessor is a node and there is no cycle. -/
theorem exists_topologicalOrder_iff {g : List (κ × List κ)} (hn : (g.map Prod.fst).Nodup) :
    (∃ order, topologicalOrder g = .ok order) ↔
      Closed g ∧ ∀ n, ¬Relation.TransGen (Edge g) n n := by
  constructor
  · rintro ⟨order, h⟩
    have hr := topologicalOrder_respects hn h
    obtain ⟨-, hmem⟩ := mem_topologicalOrder hn h
    have hsource : ∀ {n d}, Edge g n d → n ∈ order := fun ⟨ds, hds, _⟩ =>
      (hmem _).2 (List.mem_map_of_mem hds)
    refine ⟨fun n d he => ?_, fun n hcycle => ?_⟩
    · exact (hmem d).1 (hr.mem (hsource he) he)
    · obtain ⟨m, hnm, hmn⟩ := Relation.TransGen.tail'_iff.1 hcycle
      obtain ⟨k, hk, -⟩ := Relation.TransGen.head'_iff.1 hcycle
      exact hr.acyclic n (hsource hk) m hnm hmn
  · rintro ⟨hc, ha⟩
    exact loop_total _ _ le_rfl hc ha

/-! ## Independence of the listing order -/

theorem ready_perm {g g' : List (κ × List κ)} (h : g.Perm g') : ready g = ready g' :=
  ((List.perm_insertionSort _ _).trans (((h.filter _).map _).trans
    (List.perm_insertionSort _ _).symm)).eq_of_pairwise'
    (List.pairwise_insertionSort _ _) (List.pairwise_insertionSort _ _)

theorem loop_perm (fuel : ℕ) {g g' : List (κ × List κ)} (h : g.Perm g') :
    loop fuel g = loop fuel g' := by
  induction fuel generalizing g g' with
  | zero =>
    cases g with
    | nil => rw [h.nil_eq]
    | cons n g =>
      cases g' with
      | nil => exact absurd h.eq_nil (by simp)
      | cons n' g' =>
        rw [loop, loop]
        · exact congrArg Except.error (((List.perm_insertionSort _ _).trans ((h.map _).trans
            (List.perm_insertionSort _ _).symm)).eq_of_pairwise'
            (List.pairwise_insertionSort _ _) (List.pairwise_insertionSort _ _))
        all_goals simp
  | succ fuel ih =>
    cases g with
    | nil => rw [h.nil_eq]
    | cons n g =>
      cases g' with
      | nil => exact absurd h.eq_nil (by simp)
      | cons n' g' =>
        rw [loop, loop, ready_perm h, ih (prune_perm _ h)]
        · have herr : ((n :: g).map Prod.fst).insertionSort (· ≤ ·) =
              ((n' :: g').map Prod.fst).insertionSort (· ≤ ·) :=
            ((List.perm_insertionSort _ _).trans ((h.map _).trans
              (List.perm_insertionSort _ _).symm)).eq_of_pairwise'
              (List.pairwise_insertionSort _ _) (List.pairwise_insertionSort _ _)
          rw [herr]
        all_goals simp

/-- The order does not depend on how the graph was listed. -/
theorem topologicalOrder_perm {g g' : List (κ × List κ)} (h : g.Perm g') :
    topologicalOrder g = topologicalOrder g' := by
  rw [topologicalOrder, topologicalOrder, h.length_eq, loop_perm _ h]

end Order

/-! ## Tables -/

section Tabulate

variable {κ β ε : Type} [DecidableEq κ] {R : κ → κ → Prop} {rule : (κ → Option β) → κ → Except ε β}

/-- Fill a table along a list of nodes; the rule for a node sees the entries made before. -/
def tabulate (rule : (κ → Option β) → κ → Except ε β) :
    (κ → Option β) → List κ → Except ε (κ → Option β)
  | table, [] => .ok table
  | table, n :: rest =>
    match rule table n with
    | .error e => .error e
    | .ok b => tabulate rule (Function.update table n (some b)) rest

/-- Nodes outside the list keep their entries. -/
theorem tabulate_of_notMem {table table' : κ → Option β} {order : List κ}
    (h : tabulate rule table order = .ok table') {n : κ} (hn : n ∉ order) :
    table' n = table n := by
  induction order generalizing table with
  | nil => rw [← Except.ok.inj h]
  | cons m rest ih =>
    rw [List.mem_cons, not_or] at hn
    rw [tabulate] at h
    cases hb : rule table m with
    | error e => rw [hb] at h; cases h
    | ok b =>
      rw [hb] at h
      rw [ih h hn.2, Function.update_of_ne hn.1]

/-- The finished table is a fixed point of a rule that consults only predecessors. -/
theorem tabulate_spec {table table' : κ → Option β} {done order : List κ}
    (hlocal : ∀ t t' n, (∀ d, R n d → t d = t' d) → rule t n = rule t' n)
    (hr : Respects R done order) (hnd : order.Nodup) (hdone : ∀ n ∈ order, n ∉ done)
    (h : tabulate rule table order = .ok table') :
    ∀ n ∈ order, ∃ b, table' n = some b ∧ rule table' n = .ok b := by
  induction order generalizing table done with
  | nil => simp
  | cons m rest ih =>
    rw [tabulate] at h
    rw [List.nodup_cons] at hnd
    cases hb : rule table m with
    | error e => rw [hb] at h; cases h
    | ok b =>
      rw [hb] at h
      have hrest : ∀ n ∈ rest, n ∉ m :: done := fun n hn => by
        rw [List.mem_cons, not_or]
        exact ⟨fun he => hnd.1 (he ▸ hn), hdone n (List.mem_cons_of_mem _ hn)⟩
      intro n hn
      rcases List.mem_cons.1 hn with rfl | hn
      · refine ⟨b, by rw [tabulate_of_notMem h hnd.1, Function.update_self], ?_⟩
        rw [← hb]
        -- predecessors of the head are done, so no later entry changes them
        refine hlocal _ _ _ fun d hd => ?_
        have hdd : d ∈ done := hr.1 d hd
        have hne : d ≠ n := fun he => hdone n List.mem_cons_self (he ▸ hdd)
        rw [tabulate_of_notMem h (fun hmem => hrest d hmem (List.mem_cons_of_mem _ hdd)),
          Function.update_of_ne hne]
      · exact ih hr.2 hnd.2 hrest h n hn

/-- The table exists when the rule succeeds on every node whose predecessors have good
entries, and gives a good entry. -/
theorem tabulate_total {good : κ → β → Prop} {table : κ → Option β} {done order : List κ}
    (hrule : ∀ t, ∀ n ∈ order, (∀ d, R n d → ∃ b, t d = some b ∧ good d b) →
      ∃ b, rule t n = .ok b ∧ good n b)
    (hr : Respects R done order) (hnd : order.Nodup) (hdone : ∀ n ∈ order, n ∉ done)
    (ht : ∀ d ∈ done, ∃ b, table d = some b ∧ good d b) :
    ∃ table', tabulate rule table order = .ok table' := by
  induction order generalizing table done with
  | nil => exact ⟨table, rfl⟩
  | cons m rest ih =>
    rw [List.nodup_cons] at hnd
    obtain ⟨b, hb, hgood⟩ := hrule table m List.mem_cons_self fun d hd => ht d (hr.1 d hd)
    rw [tabulate, hb]
    refine ih (fun t n hn => hrule t n (List.mem_cons_of_mem _ hn)) hr.2 hnd.2 ?_ ?_
    · intro n hn
      rw [List.mem_cons, not_or]
      exact ⟨fun he => hnd.1 (he ▸ hn), hdone n (List.mem_cons_of_mem _ hn)⟩
    · intro d hd
      by_cases hdm : d = m
      · subst hdm
        exact ⟨b, Function.update_self .., hgood⟩
      · rw [Function.update_of_ne hdm]
        exact ht d ((List.mem_cons.1 hd).resolve_left hdm)

end Tabulate

end Layers

end CreatidyKernel
