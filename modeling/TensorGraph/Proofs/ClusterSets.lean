import Mathlib.Logic.Relation
import TensorGraph.Clusters
import TensorGraph.Proofs.Lists

/-!
# Clusters are disjoint lists

A node that is added joins the clusters of the nodes it depends on into one and comes last in it
(`add_spec`).  So two nodes end in one list exactly if dependencies connect them:

    (∃ ms ∈ toLists, a ∈ ms ∧ b ∈ ms)  ↔  EqvGen (Ties calls) a b              (addAll_toLists)
-/

namespace TensorGraph

namespace Clusters

open List

variable {α : Type}

def nodes (c : Clusters α) : List α := c.home.map (·.1)

def Same (c : Clusters α) (a b : α) : Prop := ∃ i, (a, i) ∈ c.home ∧ (b, i) ∈ c.home

def row (c : Clusters α) (i : Nat) : List α := c.members.getD i []

/-- Every node has one home, and the members of a cluster in use are the nodes whose home it is,
each once. -/
structure Wf (c : Clusters α) : Prop where
  nodup : c.nodes.Nodup
  bound : ∀ x i, (x, i) ∈ c.home → i < c.members.size
  listed : ∀ x i, (x, i) ∈ c.home → ∀ y, y ∈ c.row i ↔ (y, i) ∈ c.home
  once : ∀ x i, (x, i) ∈ c.home → (c.row i).Nodup

def InOrder (c : Clusters α) (Ok : α → α → Prop) : Prop := ∀ x i, (x, i) ∈ c.home →
    (c.row i).Pairwise Ok

variable {c : Clusters α} {x : α} {i j : Nat}

theorem mem_nodes : x ∈ c.nodes ↔ ∃ i, (x, i) ∈ c.home := by
  simp [nodes]

theorem Wf.same_iff (wf : c.Wf) {a b : α} (ha : (a, i) ∈ c.home) (hb : (b, j) ∈ c.home) :
    c.Same a b ↔ i = j := by
  constructor
  · rintro ⟨k, hka, hkb⟩
    rw [value_unique wf.nodup ha hka, value_unique wf.nodup hb hkb]
  · rintro rfl
    exact ⟨i, ha, hb⟩

theorem Wf.find?_iff [BEq α] [LawfulBEq α] (wf : c.Wf) : c.find? x = some i ↔ (x, i) ∈ c.home :=
  lookup_eq_some_iff_mem wf.nodup

theorem wf_empty : (empty : Clusters α).Wf :=
  ⟨by simp [nodes, empty], by simp [empty], by simp [empty], by simp [empty]⟩

/-! ## Merging -/

theorem row_modify (members : Array (List α)) (f : List α → List α) (hi : i < members.size) :
    (members.modify i f).getD j [] = if j = i then f (members.getD i []) else members.getD j
    [] := by
  simp only [Array.getD_eq_getD_getElem?, Array.getElem?_modify]
  grind

section Merge

variable (wf : c.Wf) (hi : ∃ x, (x, i) ∈ c.home) (hj : ∃ x, (x, j) ∈ c.home) (ne : i ≠ j)

theorem nodes_merge : (c.merge i j).nodes = c.nodes := by
  unfold merge nodes
  split
  · rfl
  · rw [map_map]
    refine map_congr_left fun e _ => ?_
    dsimp only [Function.comp]
    split <;> rfl

include ne in
theorem mem_home_merge {y : α} {k : Nat} :
    (y, k) ∈ (c.merge i j).home ↔ ((y, k) ∈ c.home ∧ k ≠ j) ∨ (k = i ∧ (y, j) ∈ c.home) := by
  unfold merge
  rw [if_neg (by simpa using ne)]
  simp only [mem_map]
  constructor
  · rintro ⟨⟨z, l⟩, he, h⟩
    grind
  · grind

include wf hi ne in
theorem row_merge (k : Nat) : (c.merge i j).row k = if k = i then c.row i ++
    c.row j else c.row k := by
  obtain ⟨x, hx⟩ := hi
  unfold merge row
  rw [if_neg (by simpa using ne)]
  exact row_modify c.members _ (wf.bound x i hx)

include wf hi hj ne in
theorem wf_merge : (c.merge i j).Wf := by
  obtain ⟨x, hx⟩ := hi
  obtain ⟨z, hz⟩ := hj
  have rows : ∀ y, y ∈ c.row i ++ c.row j ↔ (y, i) ∈ c.home ∨ (y, j) ∈ c.home := by
    intro y
    rw [mem_append, wf.listed x i hx, wf.listed z j hz]
  refine ⟨by rw [nodes_merge]; exact wf.nodup, fun y k h => ?_, fun y k h w => ?_, fun y k h => ?_⟩
  · have size : (c.merge i j).members.size = c.members.size := by
      unfold merge
      split <;> simp
    rw [size]
    rcases (mem_home_merge ne).1 h with ⟨h, -⟩ | ⟨rfl, -⟩
    · exact wf.bound y k h
    · exact wf.bound x k hx
  · rw [row_merge wf ⟨x, hx⟩ ne, mem_home_merge ne]
    by_cases hk : k = i
    · grind
    · rcases (mem_home_merge ne).1 h with ⟨h, hkj⟩ | ⟨rfl, -⟩
      · simp [wf.listed y k h, hkj, hk]
      · exact absurd rfl hk
  · rw [row_merge wf ⟨x, hx⟩ ne]
    by_cases hk : k = i
    · subst hk
      rw [if_pos rfl]
      refine nodup_append.2 ⟨wf.once x k hx, wf.once z j hz, ?_⟩
      rintro a ha b hb rfl
      exact ne (value_unique wf.nodup ((wf.listed x k hx a).1 ha) ((wf.listed z j hz a).1 hb))
    · rw [if_neg hk]
      rcases (mem_home_merge ne).1 h with ⟨h, -⟩ | ⟨rfl, -⟩
      · exact wf.once y k h
      · exact absurd rfl hk

include ne in
theorem same_merge {a b : α} (h : c.Same a b) : (c.merge i j).Same a b := by
  obtain ⟨k, ha, hb⟩ := h
  by_cases hk : k = j
  · subst hk
    exact ⟨i, (mem_home_merge ne).2 (Or.inr ⟨rfl, ha⟩), (mem_home_merge ne).2 (Or.inr ⟨rfl, hb⟩)⟩
  · exact ⟨k, (mem_home_merge ne).2 (Or.inl ⟨ha, hk⟩), (mem_home_merge ne).2 (Or.inl ⟨hb, hk⟩)⟩

include wf hi hj ne in
theorem inOrder_merge {Ok : α → α → Prop} (order : c.InOrder Ok)
    (across : ∀ a b, (a, i) ∈ c.home → (b, j) ∈ c.home → Ok a b) : (c.merge i j).InOrder Ok := by
  obtain ⟨x, hx⟩ := hi
  obtain ⟨z, hz⟩ := hj
  intro y k h
  rw [row_merge wf ⟨x, hx⟩ ne]
  by_cases hk : k = i
  · subst hk
    rw [if_pos rfl]
    refine pairwise_append.2 ⟨order x k hx, order z j hz, fun a ha b hb => ?_⟩
    exact across a b ((wf.listed x k hx a).1 ha) ((wf.listed z j hz b).1 hb)
  · rw [if_neg hk]
    rcases (mem_home_merge ne).1 h with ⟨h, -⟩ | ⟨rfl, -⟩
    · exact order y k h
    · exact absurd rfl hk

end Merge

/-! ## Adding -/

theorem placed_last {d : Clusters α} {k : Nat} {r : List α} (wf : c.Wf) (fresh : x ∉ c.nodes)
    (home : d.home = c.home ++ [(x, k)]) (size : c.members.size ≤ d.members.size)
    (bound : k < d.members.size) (row : d.row k = r ++ [x])
    (rows : ∀ y j, (y, j) ∈ c.home → j ≠ k → d.row j = c.row j)
    (listed : ∀ y, y ∈ r ↔ (y, k) ∈ c.home) (once : r.Nodup) :
    d.Wf ∧ ∀ Ok : α → α → Prop, c.InOrder Ok → r.Pairwise Ok → (∀ a ∈ r, Ok a x) →
    d.InOrder Ok := by
  have mem : ∀ y j, (y, j) ∈ d.home ↔ (y, j) ∈ c.home ∨ (y = x ∧ j = k) := by
    intro y j
    simp [home]
  -- a row in use is the one with the new node, or an old one
  have cases_row : ∀ y j, (y, j) ∈ d.home → j = k ∨ ((y, j) ∈ c.home ∧ j ≠ k) := by grind
  refine ⟨⟨?_, fun y j h => ?_, fun y j h w => ?_, fun y j h => ?_⟩,
    fun Ok order before last y j h => ?_⟩
  · unfold nodes
    rw [home, map_append, nodup_append]
    refine ⟨wf.nodup, by simp, ?_⟩
    rintro a ha b hb rfl
    obtain rfl : a = x := by simpa using hb
    exact fresh ha
  · rcases cases_row y j h with rfl | ⟨h, -⟩
    · exact bound
    · exact Nat.lt_of_lt_of_le (wf.bound y j h) size
  · rw [mem]
    rcases cases_row y j h with rfl | ⟨h, hj⟩
    · simp [row, listed]
    · simp [rows y j h hj, wf.listed y j h, hj]
  · rcases cases_row y j h with rfl | ⟨h, hj⟩
    · grind [row, nodup_append, mem_nodes]
    · rw [rows y j h hj]
      exact wf.once y j h
  · rcases cases_row y j h with rfl | ⟨h, hj⟩
    · grind
    · rw [rows y j h hj]
      exact order y j h

theorem put_spec (wf : c.Wf) (fresh : x ∉ c.nodes) (home : Option Nat)
    (used : ∀ i ∈ home, ∃ y, (y, i) ∈ c.home) :
    (c.put x home).Wf ∧ (c.put x home).nodes = c.nodes ++ [x] ∧
      (∀ y i, (y, i) ∈ (c.put x home).home ↔ (y, i) ∈ c.home ∨ y = x ∧
        i = home.getD c.members.size) ∧
      ∀ Ok : α → α → Prop, c.InOrder Ok → (∀ i ∈ home, ∀ a, (a, i) ∈ c.home → Ok a x) →
        (c.put x home).InOrder Ok := by
  cases home with
  | some i =>
    obtain ⟨z, hz⟩ := used i rfl
    have row_put : ∀ k, (c.put x (some i)).row k = if k = i then c.row i ++ [x] else c.row k :=
      fun k => row_modify c.members _ (wf.bound z i hz)
    obtain ⟨wf', order'⟩ := placed_last (d := c.put x (some i)) wf fresh rfl (by simp [put])
      (by simpa [put] using wf.bound z i hz) (by rw [row_put, if_pos rfl])
        (fun y j _ hj => by rw [row_put, if_neg hj])
      (wf.listed z i hz) (wf.once z i hz)
    refine ⟨wf', by simp [nodes, put], by simp [put], fun Ok order last => ?_⟩
    exact order' Ok order (order z i hz) fun a ha => last i rfl a ((wf.listed z i hz a).1 ha)
  | none =>
    have unused : ∀ y, (y, c.members.size) ∉ c.home := fun y h => Nat.lt_irrefl _ (wf.bound y _ h)
    obtain ⟨wf', order'⟩ := placed_last (d := c.put x none) (r := []) wf fresh rfl (by simp [put])
      (by simp [put])
      (by simp [put, row, Array.getD_eq_getD_getElem?])
      (fun y j h hj => by simp [put, row, Array.getD_eq_getD_getElem?, Array.getElem?_push, hj])
      (by simp [unused]) (by simp)
    grind [nodes, put, mem_append_left]

variable [BEq α] [LawfulBEq α]

/-- Joins the clusters of some nodes, one after the other, to the one given. -/
def joinAll (c : Clusters α) (home : Option Nat) (deps : List α) : Clusters α × Option Nat :=
  deps.foldl (fun (c, i) d =>
    match c.find? d, i with
    | none, i => (c, i)
    | some j, none => (c, some j)
    | some j, some i => (c.merge i j, some i)) (c, home)

/-- What joining clusters leaves. -/
structure Join (c : Clusters α) (home : Option Nat) (deps : List α) (d : Clusters α)
    (home' : Option Nat) : Prop where
  wf : d.Wf
  nodes : d.nodes = c.nodes
  same : ∀ a b, c.Same a b → d.Same a b
  used : ∀ i ∈ home', ∃ y, (y, i) ∈ d.home
  old : ∀ i ∈ home, i ∈ home' ∧ ∀ y, (y, i) ∈ c.home → (y, i) ∈ d.home
  joined : ∀ x ∈ deps, x ∈ c.nodes → ∃ i ∈ home', (x, i) ∈ d.home
  only : ∀ (R : α → α → Prop) (x : α), Equivalence R → (∀ a b, c.Same a b → R a b) →
    (∀ i ∈ home, ∀ a, (a, i) ∈ c.home → R a x) → (∀ y ∈ deps, y ∈ c.nodes → R y x) →
    (∀ a b, d.Same a b → R a b) ∧ ∀ i ∈ home', ∀ a, (a, i) ∈ d.home → R a x
  order : ∀ Ok : α → α → Prop, c.InOrder Ok →
    (∀ a b, a ∈ c.nodes → b ∈ c.nodes → d.Same a b → ¬ c.Same a b → Ok a b) → d.InOrder Ok

omit [BEq α] [LawfulBEq α] in
theorem Join.trans {c c₁ c₂ : Clusters α} {home home₁ home₂ : Option Nat} {d : α} {deps : List α}
    (first : Join c home [d] c₁ home₁) (rest : Join c₁ home₁ deps c₂ home₂) :
    Join c home (d :: deps) c₂ home₂ where
  wf := rest.wf
  nodes := rest.nodes.trans first.nodes
  same a b h := rest.same a b (first.same a b h)
  used := rest.used
  old i hi := by
    obtain ⟨hi, first⟩ := first.old i hi
    obtain ⟨hi, rest⟩ := rest.old i hi
    exact ⟨hi, fun y h => rest y (first y h)⟩
  joined := by
    refine forall_mem_cons.2 ⟨fun hd => ?_, fun x hx hn => rest.joined x hx (first.nodes ▸ hn)⟩
    obtain ⟨i, hi, h⟩ := first.joined d mem_cons_self hd
    exact ⟨i, (rest.old i hi).1, (rest.old i hi).2 d h⟩
  only R x eqv same home named := by
    obtain ⟨same, home⟩ := first.only R x eqv same home fun y hy => named y (by simp_all)
    exact rest.only R x eqv same home fun y hy hn => named y (mem_cons_of_mem d hy)
      (first.nodes ▸ hn)
  order Ok order across := by
    refine rest.order Ok (first.order Ok order fun a b ha hb h far =>
      across a b ha hb (rest.same a b h) far) fun a b ha hb h far => ?_
    exact across a b (first.nodes ▸ ha) (first.nodes ▸ hb) h fun near => far (first.same a b near)

theorem joinAll_singleton {home : Option Nat} (d : α) (wf : c.Wf)
    (used : ∀ i ∈ home, ∃ y, (y, i) ∈ c.home) :
    Join c home [d] (c.joinAll home [d]).1 (c.joinAll home [d]).2 := by
  -- where no clusters are merged, only the home may be new
  have stays : ∀ home' : Option Nat, (∀ i ∈ home, i ∈ home') →
    (d ∈ c.nodes → ∃ i ∈ home', (d, i) ∈ c.home) →
      (∀ i ∈ home', (d, i) ∈ c.home ∨ i ∈ home) → Join c home [d] c home' := by
    intro home' old joined new
    refine ⟨wf, rfl, fun _ _ h => h, by grind, fun i hi => ⟨old i hi, fun _ h =>
      h⟩, by simpa using joined, ?_, fun _ order _ => order⟩
    intro R x eqv same home named
    refine ⟨same, fun i hi a ha => ?_⟩
    rcases new i hi with hd | hi
    · exact eqv.trans (same a d ⟨i, ha, hd⟩) (named d mem_cons_self (mem_nodes.2 ⟨i, hd⟩))
    · exact home i hi a ha
  unfold joinAll
  rw [foldl_cons, foldl_nil]
  dsimp only
  cases hd : c.find? d with
  | none =>
    refine stays home (fun _ h => h) (fun h => ?_) fun _ h => Or.inr h
    obtain ⟨i, hi⟩ := mem_nodes.1 h
    cases hd.symm.trans (wf.find?_iff.2 hi)
  | some j =>
    have hj := wf.find?_iff.1 hd
    cases home with
    | none => exact stays (some j) (by simp) (by simpa using fun _ => hj) (by simpa using hj)
    | some i =>
      obtain ⟨z, hz⟩ := used i rfl
      by_cases ne : i = j
      · subst ne
        have same : c.merge i i = c := by simp [merge]
        simp only [same]
        exact stays (some i) (by simp) (by simpa using fun _ => hj) (by simp)
      · refine ⟨wf_merge wf ⟨z, hz⟩ ⟨d, hj⟩ ne, nodes_merge, fun a b h => same_merge ne h, ?_, ?_,
          ?_, ?_, ?_⟩
        · grind [mem_home_merge]
        · grind [mem_home_merge]
        · simpa using fun _ => (mem_home_merge ne).2 (Or.inr ⟨rfl, hj⟩)
        · intro R x eqv same home named
          have hd := named d mem_cons_self (mem_nodes.2 ⟨j, hj⟩)
          have all : ∀ a, (a, i) ∈ (c.merge i j).home → R a x := by
            intro a ha
            rcases (mem_home_merge ne).1 ha with ⟨ha, -⟩ | ⟨-, ha⟩
            · exact home i rfl a ha
            · exact eqv.trans (same a d ⟨j, ha, hj⟩) hd
          refine ⟨?_, by simpa using all⟩
          rintro a b ⟨k, ha, hb⟩
          by_cases hk : k = i
          · subst hk
            exact eqv.trans (all a ha) (eqv.symm (all b hb))
          · refine same a b ⟨k, ?_, ?_⟩
            · grind [mem_home_merge]
            · grind [mem_home_merge]
        · intro Ok order across
          refine inOrder_merge wf ⟨z, hz⟩ ⟨d, hj⟩ ne order fun a b ha hb => ?_
          refine across a b (mem_nodes.2 ⟨i, ha⟩) (mem_nodes.2 ⟨j, hb⟩) ⟨i, ?_, ?_⟩ ?_
          · exact (mem_home_merge ne).2 (Or.inl ⟨ha, ne⟩)
          · exact (mem_home_merge ne).2 (Or.inr ⟨rfl, hb⟩)
          · rwa [wf.same_iff ha hb]

theorem joinAll_spec (deps : List α) (c : Clusters α) (home : Option Nat) (wf : c.Wf)
    (used : ∀ i ∈ home, ∃ y, (y, i) ∈ c.home) :
    Join c home deps (c.joinAll home deps).1 (c.joinAll home deps).2 := by
  induction deps generalizing c home with
  | nil =>
    exact ⟨wf, rfl, fun _ _ h => h, used, fun i hi =>
      ⟨hi, fun _ h => h⟩, by simp, fun _ _ _ same home _ => ⟨same, home⟩, fun Ok order _ => order⟩
  | cons d deps ih =>
    have first := joinAll_singleton d wf used
    exact first.trans (ih _ _ first.wf first.used)

/-- A node that is added comes last in the cluster that is made of those of the nodes it depends
on. -/
structure Added (c : Clusters α) (x : α) (deps : List α) (d : Clusters α) : Prop where
  wf : d.Wf
  nodes : d.nodes = c.nodes ++ [x]
  same : ∀ a b, c.Same a b → d.Same a b
  joined : ∀ y ∈ deps, y ∈ c.nodes → d.Same y x
  only : ∀ R : α → α → Prop, Equivalence R → (∀ a b, c.Same a b → R a b) →
    (∀ y ∈ deps, y ∈ c.nodes → R y x) →
    ∀ a b, d.Same a b → R a b
  order : ∀ Ok : α → α → Prop, c.InOrder Ok →
    (∀ a b, a ∈ c.nodes → b ∈ c.nodes → d.Same a b → ¬ c.Same a b → Ok a b) →
      (∀ a ∈ c.nodes, Ok a x) → d.InOrder Ok

theorem add_spec (wf : c.Wf) (fresh : x ∉ c.nodes) (deps : List α) :
    Added c x deps (c.add x deps) := by
  have new : c.find? x = none := by
    cases h : c.find? x with
    | none => rfl
    | some i => exact absurd (mem_nodes.2 ⟨i, wf.find?_iff.1 h⟩) fresh
  have unfold_add : c.add x deps = (c.joinAll none deps).1.put x (c.joinAll none deps).2 := by
    unfold add
    rw [new]
    rfl
  have join := joinAll_spec deps c none wf (by simp)
  obtain ⟨wf', nodes', homes, order'⟩ := put_spec join.wf (by rw [join.nodes]; exact fresh) _
    join.used
  rw [unfold_add]
  have same' : ∀ a b, (c.joinAll none deps).1.Same a b →
    ((c.joinAll none deps).1.put x (c.joinAll none deps).2).Same a b :=
    fun a b ⟨i, ha, hb⟩ => ⟨i, (homes a i).2 (Or.inl ha), (homes b i).2 (Or.inl hb)⟩
  refine ⟨wf', by rw [nodes', join.nodes], fun a b h => same' a b (join.same a b
    h), fun y hy hn => ?_,
    fun R eqv same named => ?_, fun Ok order across last => ?_⟩
  · obtain ⟨i, hi, hy⟩ := join.joined y hy hn
    exact ⟨i, (homes y i).2 (Or.inl hy), (homes x i).2
      (Or.inr ⟨rfl, by simp [Option.mem_def.1 hi]⟩)⟩
  · obtain ⟨same, home⟩ := join.only R x eqv same (by simp) named
    -- whoever shares the home of the new node was joined
    have last :
        ∀ a i, (a, i) ∈ (c.joinAll none deps).1.home →
        i = (c.joinAll none deps).2.getD (c.joinAll none deps).1.members.size → R a x := by
      intro a i ha hi
      have bound := join.wf.bound a i ha
      cases h : (c.joinAll none deps).2 with
      | none => simp [h] at hi; omega
      | some k => exact home k (by rw [h]; rfl) a (by simpa [h, hi] using ha)
    rintro a b ⟨i, ha, hb⟩
    rcases (homes a i).1 ha with old | ⟨rfl, hi⟩
    · rcases (homes b i).1 hb with old' | ⟨rfl, hi⟩
      · exact same a b ⟨i, old, old'⟩
      · exact last a i old hi
    · rcases (homes b i).1 hb with old | ⟨rfl, -⟩
      · exact eqv.symm (last b i old hi)
      · exact eqv.refl _
  · refine order' Ok (join.order Ok order fun a b ha hb h far => across a b ha hb (same' a b h) far)
      fun i hi a ha => ?_
    exact last a (by rw [← join.nodes]; exact mem_nodes.2 ⟨i, ha⟩)

/-! ## The lists -/

omit [BEq α] [LawfulBEq α] in
theorem toLists_spec (wf : c.Wf) :
    (∀ ms ∈ c.toLists, ms ≠ [] ∧ ms.Nodup) ∧ c.toLists.Pairwise List.Disjoint ∧
      (∀ a, a ∈ c.nodes ↔ ∃ ms ∈ c.toLists, a ∈ ms) ∧
        (∀ a b, c.Same a b ↔ ∃ ms ∈ c.toLists, a ∈ ms ∧ b ∈ ms) ∧
      ∀ Ok : α → α → Prop, c.InOrder Ok → ∀ ms ∈ c.toLists, ms.Pairwise Ok := by
  have lists : ∀ ms, ms ∈ c.toLists ↔ ∃ x i, (x, i) ∈ c.home ∧ c.row i = ms := by
    intro ms
    unfold toLists
    rw [mem_map]
    constructor
    · rintro ⟨i, hi, rfl⟩
      rw [mem_distinct, mem_map] at hi
      obtain ⟨⟨x, j⟩, hx, rfl⟩ := hi
      exact ⟨x, j, hx, rfl⟩
    · rintro ⟨x, i, hx, rfl⟩
      exact ⟨i, mem_distinct.2 (mem_map.2 ⟨(x, i), hx, rfl⟩), rfl⟩
  refine ⟨fun ms hms => ?_, ?_, fun a => ⟨fun ha => ?_, ?_⟩, fun a b => ⟨?_, ?_⟩,
    fun Ok order ms hms => ?_⟩
  · obtain ⟨x, i, hx, rfl⟩ := (lists ms).1 hms
    exact ⟨ne_nil_of_mem ((wf.listed x i hx x).2 hx), wf.once x i hx⟩
  · unfold toLists
    rw [pairwise_map]
    refine (nodup_distinct _).imp_of_mem fun {i j} hi hj ne => ?_
    rw [mem_distinct, mem_map] at hi hj
    obtain ⟨⟨x, i⟩, hx, rfl⟩ := hi
    obtain ⟨⟨y, j⟩, hy, rfl⟩ := hj
    intro a ha hb
    exact ne (value_unique wf.nodup ((wf.listed x i hx a).1 ha) ((wf.listed y j hy a).1 hb))
  · obtain ⟨i, hi⟩ := mem_nodes.1 ha
    exact ⟨c.row i, (lists _).2 ⟨a, i, hi, rfl⟩, (wf.listed a i hi a).2 hi⟩
  · rintro ⟨ms, hms, ha⟩
    obtain ⟨x, i, hx, rfl⟩ := (lists ms).1 hms
    exact mem_nodes.2 ⟨i, (wf.listed x i hx a).1 ha⟩
  · rintro ⟨i, ha, hb⟩
    exact ⟨c.row i, (lists _).2 ⟨a, i, ha, rfl⟩, (wf.listed a i ha a).2 ha,
      (wf.listed a i ha b).2 hb⟩
  · rintro ⟨ms, hms, ha, hb⟩
    obtain ⟨x, i, hx, rfl⟩ := (lists ms).1 hms
    exact ⟨i, (wf.listed x i hx a).1 ha, (wf.listed x i hx b).1 hb⟩
  · obtain ⟨x, i, hx, rfl⟩ := (lists ms).1 hms
    exact order x i hx

/-! ## Adding one after the other -/

def addAll (calls : List (α × List α)) : Clusters α := calls.foldl (fun c e => c.add e.1 e.2) empty

/-- A node was added with a dependency on a node that was there. -/
def Ties (calls : List (α × List α)) (a b : α) : Prop :=
  ∃ front deps back, calls = front ++ (b, deps) :: back ∧ a ∈ deps ∧ a ∈ front.map (·.1)

/-- Every node is added after the nodes it depends on. -/
def Ready (calls : List (α × List α)) : Prop :=
  ∀ front b deps back, calls = front ++ (b, deps) :: back → ∀ a ∈ deps, a ∈ front.map (·.1)

/-- What holds when the first few of some nodes have been added. -/
structure Grouped (calls done : List (α × List α)) (c : Clusters α) : Prop where
  wf : c.Wf
  nodes : c.nodes = done.map (·.1)
  same : ∀ a ∈ c.nodes, ∀ b ∈ c.nodes, c.Same a b ↔ Relation.EqvGen (Ties done) a b
  order : Ready calls → c.InOrder fun a b => ∀ deps, (a, deps) ∈ calls → b ∉ deps

omit [BEq α] [LawfulBEq α] in
theorem ties_snoc {done : List (α × List α)} {deps : List α} {a b : α} :
    Ties (done ++ [(x, deps)]) a b ↔ Ties done a b ∨ b = x ∧ a ∈ deps ∧ a ∈ done.map (·.1) := by
  constructor
  · rintro ⟨front, ds, back, split, ha, before⟩
    rcases eq_nil_or_concat back with rfl | ⟨back, e, rfl⟩
    · obtain ⟨rfl, last⟩ := append_inj' split rfl
      cases last
      exact Or.inr ⟨rfl, ha, before⟩
    · have split : done ++ [(x, deps)] = (front ++ (b, ds) :: back) ++ [e] := by simpa using split
      exact Or.inl ⟨front, ds, back, (append_inj' split rfl).1, ha, before⟩
  · rintro (⟨front, ds, back, rfl, ha, before⟩ | ⟨rfl, ha, before⟩)
    · exact ⟨front, ds, back ++ [(x, deps)], by simp, ha, before⟩
    · exact ⟨done, deps, [], by simp, ha, before⟩

omit [BEq α] [LawfulBEq α] in
theorem Ties.mem {done : List (α × List α)} {a b : α} (link : Ties done a b) : a ∈ done.map (·.1) ∧
    b ∈ done.map (·.1) := by
  obtain ⟨front, deps, back, rfl, -, before⟩ := link
  simp [before]

theorem Grouped.add {calls done rest : List (α × List α)} {deps : List α}
    (distinct : (calls.map (·.1)).Nodup) (split : calls = done ++ (x, deps) :: rest)
    (grouped : Grouped calls done c) :
    Grouped calls (done ++ [(x, deps)]) (c.add x deps) := by
  have fresh : x ∉ c.nodes := by
    rw [grouped.nodes]
    grind
  have added := add_spec grouped.wf fresh deps
  have same_trans : ∀ a b d, (c.add x deps).Same a b → (c.add x deps).Same b d →
    (c.add x deps).Same a d := by
    rintro a b d ⟨i, ha, hb⟩ ⟨j, hb', hd⟩
    rw [value_unique added.wf.nodup hb hb'] at ha
    exact ⟨j, ha, hd⟩
  -- the entry of a node that was added stands among those done, and with it all that the node
  -- depends on
  have earlier : Ready calls → ∀ a ∈ c.nodes, ∀ ds, (a, ds) ∈ calls → ∀ b ∈ ds, Ties done b a ∧
    b ∈ c.nodes := by
    intro ready a ha ds entry b hb
    rw [grouped.nodes] at ha ⊢
    obtain ⟨⟨a, ds'⟩, here, rfl⟩ := mem_map.1 ha
    obtain rfl := value_unique distinct entry (split ▸ mem_append_left _ here)
    obtain ⟨front, back, rfl⟩ := append_of_mem here
    have before := ready front a ds (back ++ (x, deps) :: rest) (by simp [split]) b hb
    exact ⟨⟨front, ds, back, rfl, hb, before⟩, by simp [before]⟩
  refine ⟨added.wf, by simp [added.nodes, grouped.nodes], fun a ha b hb => ⟨?_,
    fun path => ?_⟩, fun ready => ?_⟩
  · refine added.only _ (Relation.EqvGen.is_equivalence _) (fun a b h => ?_) (fun y hy hn => ?_) a b
    · obtain ⟨i, hai, hbi⟩ := h
      exact ((grouped.same a (mem_nodes.2 ⟨i, hai⟩) b (mem_nodes.2 ⟨i, hbi⟩)).1 ⟨i, hai, hbi⟩).mono
        fun _ _ h => ties_snoc.2 (Or.inl h)
    · exact .rel _ _ (ties_snoc.2 (Or.inr ⟨rfl, hy, grouped.nodes ▸ hn⟩))
  · suffices h : a = b ∨ (c.add x deps).Same a b by
      rcases h with rfl | h
      · obtain ⟨i, hi⟩ := mem_nodes.1 ha
        exact ⟨i, hi, hi⟩
      · exact h
    clear ha hb
    induction path with
    | rel a b link =>
      rcases ties_snoc.1 link with link | ⟨rfl, ha, there⟩
      · obtain ⟨ha, hb⟩ := link.mem
        rw [← grouped.nodes] at ha hb
        exact Or.inr (added.same a b ((grouped.same a ha b hb).2 (.rel a b link)))
      · exact Or.inr (added.joined a ha (grouped.nodes ▸ there))
    | refl a => exact Or.inl rfl
    | symm a b _ ih => exact ih.imp Eq.symm fun ⟨i, ha, hb⟩ => ⟨i, hb, ha⟩
    | trans a b d _ _ ih ih' =>
      rcases ih with rfl | ih
      · exact ih'
      · rcases ih' with rfl | ih'
        · exact Or.inr ih
        · exact Or.inr (same_trans a b d ih ih')
  · refine added.order _ (grouped.order ready) (fun a b ha hb h far ds entry hbd => ?_) fun a ha ds
      entry hx => ?_
    · exact far ((grouped.same a ha b hb).2
        (.symm _ _ (.rel _ _ (earlier ready a ha ds entry b hbd).1)))
    · exact fresh (earlier ready a ha ds entry x hx).2

theorem addAll_grouped {calls : List (α × List α)} (distinct : (calls.map (·.1)).Nodup) :
    Grouped calls calls (addAll calls) := by
  suffices walk : ∀ rest done c, calls = done ++ rest → Grouped calls done c →
      Grouped calls calls (rest.foldl (fun c e => c.add e.1 e.2) c) by
    refine walk calls [] empty rfl
      ⟨wf_empty, rfl, by simp [nodes, empty], fun _ => by simp [InOrder, empty]⟩
  intro rest
  induction rest with
  | nil =>
    intro done c split grouped
    rwa [split, append_nil] at *
  | cons e rest ih =>
    exact fun done c split grouped =>
      ih (done ++ [e]) _ (by simp [split]) (grouped.add distinct split)

/-- Nodes that are added one after the other, each once, come into lists without repetition, each
into one of them. Two are in one list exactly if dependencies on nodes that were there connect them,
and a list holds every node behind those it depends on, if all of these were added before it. -/
theorem addAll_toLists {calls : List (α × List α)} (distinct : (calls.map (·.1)).Nodup) :
    (∀ ms ∈ (addAll calls).toLists, ms ≠ [] ∧ ms.Nodup) ∧
    (addAll calls).toLists.Pairwise List.Disjoint ∧
      (∀ a, a ∈ calls.map (·.1) ↔ ∃ ms ∈ (addAll calls).toLists, a ∈ ms) ∧
      (∀ a ∈ calls.map (·.1), ∀ b ∈ calls.map (·.1),
        (∃ ms ∈ (addAll calls).toLists, a ∈ ms ∧ b ∈ ms) ↔ Relation.EqvGen (Ties calls) a b) ∧
      (Ready calls → ∀ ms ∈ (addAll calls).toLists, ∀ front b back, ms = front ++ b :: back →
        ∀ deps, (b, deps) ∈ calls → ∀ a ∈ deps, a ∈ ms → a ∈ front) := by
  have grouped := addAll_grouped distinct
  obtain ⟨once, disjoint, nodes, same, order⟩ := toLists_spec grouped.wf
  rw [← grouped.nodes]
  refine ⟨once, disjoint, nodes, fun a ha b hb => (same a b).symm.trans (grouped.same a ha b hb),
    ?_⟩
  rintro ready ms hms front b back rfl deps entry a ha here
  have later := (pairwise_append.1 (order _ (grouped.order ready) _ hms)).2.1
  have other : a ≠ b := by
    rintro rfl
    obtain ⟨l, r, split⟩ := append_of_mem entry
    have before := ready l a deps r split a ha
    rw [split, map_append, map_cons] at distinct
    exact (nodup_append.1 distinct).2.2 a before a mem_cons_self rfl
  rcases mem_append.1 here with front | back
  · exact front
  · exact absurd ha ((pairwise_cons.1 later).1 a ((mem_cons.1 back).resolve_left other) deps entry)

/-- The last node joins two clusters. -/
theorem addAll_toLists_joined :
    (addAll [(1, []), (2, [9]), (3, [1]), (4, [2, 3, 2])]).toLists = [[2, 1, 3, 4]] ∧
      Relation.EqvGen (Ties [(1, []), (2, [9]), (3, [1]), (4, [2, 3, 2])]) 1 2 := by
  have lists : (addAll [(1, []), (2, [9]), (3, [1]), (4, [2, 3, 2])]).toLists = [[2, 1, 3, 4]] := by
    decide
  have distinct : ([(1, []), (2, [9]), (3, [1]), (4, [2, 3, 2])].map fun e : Nat × List Nat =>
    e.1).Nodup := by decide
  obtain ⟨-, -, -, connected, -⟩ := addAll_toLists distinct
  exact ⟨lists, (connected 1 (by decide) 2 (by decide)).1
    ⟨_, by rw [lists]; exact mem_cons_self, by decide, by decide⟩⟩

end Clusters

end TensorGraph
