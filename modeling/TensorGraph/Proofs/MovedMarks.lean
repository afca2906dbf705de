import TensorGraph.Pass
import TensorGraph.Proofs.CatalogFrames
import TensorGraph.Proofs.IndependentGroups

/-!
# Marks that move

A few steps move the mark of an output, with its name, from one tensor to another, or drop it.
-/

namespace TensorGraph

set_option synthInstance.maxSize 1024

open Build List

variable {t : TensorId} {o : OpId} {ts : Graph}

variable {g g' : Arena} {c : OpClass}

def Arena.Named (g : Arena) : Prop := ∀ t, (g.tensor t).isOutput = true → (g.tensor t).name.isSome

namespace Build

instance : ReadOnly target := .of_parts

/-- Every output has the name of an output from before. -/
structure NamedFrom (g g' : Arena) : Prop where
  named : g'.Named
  from_output : ∀ t n, g'.HasOutput t n → ∃ u, g.HasOutput u n

def Frame.named : Frame where
  rel g g' := g.Named → NamedFrom g g'
  refl g named := ⟨named, fun t _ h => ⟨t, h⟩⟩
  trans := by
    intro g g₁ g' h h' named
    have first := h named
    have second := h' first.named
    refine ⟨second.named, fun t n ht => ?_⟩
    obtain ⟨u, hu⟩ := second.from_output t n ht
    exact first.from_output u n hu

theorem SameMarks.namedFrom (same : SameMarks g g') (named : g.Named) : NamedFrom g g' := by
  have old : ∀ t, (g'.tensor t).isOutput = true → (g.tensor t).isOutput = true ∧
    (g'.tensor t).name = (g.tensor t).name := by
    intro t ht
    by_cases known : t.idx < g.tensors.size
    · rw [same.isOutput t known] at ht
      obtain ⟨n, hn⟩ := Option.isSome_iff_exists.1 (named t ht)
      exact ⟨ht, (same.name t n hn).trans hn.symm⟩
    · rw [same.new t (Nat.le_of_not_lt known)] at ht
      cases ht
  refine ⟨fun t ht => ?_, fun t n ht => ⟨t, (old t ht.1).1, (old t ht.1).2 ▸ ht.2⟩⟩
  rw [(old t ht).2]
  exact named t (old t ht).1

instance (priority := low) Within.named_of_marks {α : Type} {x : Build α} [marks : Within .marks x]
    : Within .named x where
  keeps run := (marks.keeps run).namedFrom

instance : Within.SeesTensor .named t fun x => (x.isOutput, x.name) :=
  ⟨fun same => ⟨fun run => ((Within.SeesTensor.modify (R := .marks) same).keeps run).namedFrom⟩⟩

instance : Within.SeesOp .named o fun _ => () := ⟨fun _ => inferInstance⟩

theorem Within.bind_knowing {α β : Type} {R : Frame} {x : Build α} {f : α → Build β} (P : α → Prop)
    (result : ∀ {g g' : Arena} {a : α}, x g = .ok a g' → P a) (rest : ∀ a, P a → Within R (f a))
    (first : Within R x := by exact Build.Within.of_parts) : Within R (x >>= f) where
  keeps run := by
    obtain ⟨a, g₁, run₁, run₂⟩ := bind_ok.1 run
    exact R.trans (first.keeps run₁) ((rest a (result run₁)).keeps run₂)

theorem namedFrom_modifyTensor (named : g.Named) (t : TensorId) {f : Tensor → Tensor}
    (mark : (f (g.tensor t)).isOutput = true → ∃ u, (g.tensor u).isOutput = true ∧
      (f (g.tensor t)).name = (g.tensor u).name) :
    NamedFrom g (g.modifyTensor t f) := by
  refine ⟨fun u hu => ?_, fun u n hu => ?_⟩
  · rw [Arena.tensor_modifyTensor_ite] at hu ⊢
    split at hu
    · next e =>
      obtain ⟨rfl, known⟩ := e
      rw [if_pos ⟨rfl, known⟩]
      obtain ⟨w, hw, name⟩ := mark hu
      rw [name]
      exact named w hw
    · next e =>
      rw [if_neg e]
      exact named u hu
  · rw [Arena.HasOutput, Arena.tensor_modifyTensor_ite] at hu
    split at hu
    · next e =>
      rw [e.1] at hu
      obtain ⟨w, hw, name⟩ := mark hu.1
      exact ⟨w, hw, name ▸ hu.2⟩
    · exact ⟨u, hu⟩

instance : Within .named (detach t) where
  keeps run named := by
    rw [detach, modifyTensor_ok] at run
    rw [run]
    exact namedFrom_modifyTensor named t nofun

instance (dst src : TensorId) : Within .named (copyMarks dst src) where
  keeps {g _ _} run named := by
    simp only [copyMarks, bind_ok, tensor_ok, modifyTensor_ok] at run
    obtain ⟨_, _, ⟨rfl, rfl⟩, rfl⟩ := run
    exact namedFrom_modifyTensor named dst fun mark => ⟨src, mark, rfl⟩

instance (x y : TensorId) : Within .named (takeOver x y) where
  keeps {g _ _} run named := by
    simp only [takeOver, bind_ok, tensor_ok] at run
    obtain ⟨_, _, ⟨rfl, rfl⟩, run⟩ := run
    split at run
    · next mark =>
      rw [modifyTensor_ok] at run
      rw [run]
      exact namedFrom_modifyTensor named x fun _ => ⟨y, mark, rfl⟩
    · obtain ⟨-, rfl⟩ := pure_ok.1 run
      exact Frame.named.refl g named

instance (old new : TensorId) : Within .named (replaceTensor old new) where
  keeps {g _ _} run named := by
    unfold replaceTensor at run
    rw [bind_run (tensor_run _)] at run
    split at run
    · next mark =>
      obtain ⟨_, _, moved, rest⟩ := bind_ok.1 run
      obtain rfl := modifyTensor_ok.1 moved
      have first : Frame.named.rel g (g.modifyTensor new fun y =>
        { y with isOutput := true, name := (g.tensor old).name }) :=
        fun named => namedFrom_modifyTensor named new fun _ => ⟨old, mark, rfl⟩
      exact Frame.named.trans first (Frame.named.keeps rest) named
    · exact (Frame.named.keeps run) named

instance : Within .named (bypass o) := .of_parts

end Build

/-! ## Chains -/

namespace Chain

/-- Building an operator moves no mark. -/
theorem build_marks (known : Computes c) (settings : List (String × Value)) (ts : List TensorId) :
    Within .marks (build c settings ts) where
  keeps run := (build_run known run).2

instance (c : OpClass) (ts : List TensorId) : ReadOnly (suits c ts) := .of_parts

instance (fs : List ScalarFn) : ReadOnly (follow t fs) := by
  induction fs generalizing t with
  | nil => unfold follow; infer_instance
  | cons f fs ih =>
    unfold follow
    refine .bind_of fun x => ?_
    split
    · refine .bind_of fun ys => ?_
      split <;> infer_instance
    · infer_instance

instance (root : OpId) (cs : List Chain) : ReadOnly (findAny? t root cs) := by
  induction cs with
  | nil => unfold findAny?; infer_instance
  | cons c cs ih =>
    unfold findAny?
    exact .of_parts

instance (links : List (OpId × TensorId)) : ReadOnly (otherOperands t links) := by
  induction links generalizing t with
  | nil => unfold otherOperands; infer_instance
  | cons e links ih => unfold otherOperands; exact .of_parts

instance (c : OpClass) (root : OpId) (ts : List TensorId) : ReadOnly (residualFits c root ts) := by
  unfold residualFits
  exact .of_parts

theorem findAny?_mem {t : TensorId} {root : OpId} {cs : List Chain} {c : Chain}
    {links : List (OpId × TensorId)} (run : findAny? t root cs g = .ok (some (c, links)) g') :
    c ∈ cs ∧ c.find? t root g = .ok (some links) g := by
  induction cs with
  | nil =>
    simp only [findAny?, pure_ok] at run
    cases run.1
  | cons d cs ih =>
    simp only [findAny?, bind_ok] at run
    obtain ⟨found, g₁, first, run⟩ := run
    obtain rfl := ReadOnly.keeps first
    split at run
    · simp_all
    · grind

theorem replace?_named {chains : List Chain} (known : ∀ c ∈ chains, Computes c.into)
    (t : TensorId) :
    Within .named (replace? chains t) := by
  unfold replace?
  refine .bind_of fun x => ?_
  split
  · refine Within.bind_knowing (fun found => ∀ c links, found = some (c, links) → c ∈ chains)
      (fun run c links h => (findAny?_mem (h ▸ run)).1) fun found mem => ?_
    split
    · next c links =>
      have (settings : List (String × Value)) (ts : List TensorId) :=
        build_marks (known c (mem c links rfl)) settings ts
      exact .of_parts
    · infer_instance
  · infer_instance

theorem fuse_named (chains : List Chain) (known : ∀ c ∈ chains, Computes c.into) (ts : Graph) :
    Within .named (fuse chains ts) := by
  have := replace?_named known
  unfold fuse
  refine Within.seq (@Within.foldlM _ _ _ _ _ (fun acc t => ?_) _) fun _ => inferInstance
  exact .of_parts

instance : Within .named (fuseConv ts) := by
  have := fuse_named convBias (by decide)
  have := fuse_named convActivation (by decide)
  have := fuse_named convExtra (by decide)
  unfold fuseConv
  exact .of_parts

end Chain

/-! ## Products and what follows them -/

namespace Product

instance : Within .named (joinSwish ts) := by
  have (operands : List TensorId) := Chain.build_marks (c := .gemmRcrBiasSwish) (by decide)
    [] operands
  unfold joinSwish
  dsimp only
  refine Within.seq (@Within.foldlM _ _ _ _ _ (fun acc t => ?_) _) fun _ => inferInstance
  exact .of_parts

instance : Within .named (fuse ts) := by
  have := Chain.fuse_named Chain.productBias (by decide)
  have := Chain.fuse_named Chain.productActivation (by decide)
  unfold fuse
  exact .of_parts

end Product

/-! ## Transposed operands -/

namespace LayoutRule

variable {r : LayoutRule}

def Computes (r : LayoutRule) : Prop := (∀ c, r.first = some c → Chain.Computes c) ∧
    ∀ c, r.second = some c → Chain.Computes c

instance (r : LayoutRule) (ts : List TensorId) : ReadOnly (r.lacksBatches ts) := by
  unfold lacksBatches hasBatches
  exact .of_parts

theorem rewritten_mem {t before : TensorId} {ts : List TensorId}
    {e : Option OpClass × List TensorId} (run : r.rewritten t before ts g = .ok e g') :
    e.1 = r.first ∨ e.1 = r.second := by
  unfold rewritten at run
  simp only [bind_ok, expect_ok] at run
  obtain ⟨a, _, -, b, _, -, run⟩ := run
  split at run
  · exact .inl (congrArg Prod.fst (pure_ok.1 run).1).symm
  · split at run
    · exact .inr (congrArg Prod.fst (pure_ok.1 run).1).symm
    · exact (throw_ok.1 run).elim

theorem replace?_named (known : r.Computes) (t : TensorId) : Within .named (r.replace? t) := by
  unfold replace?
  refine .bind_of fun found => ?_
  split
  · refine .bind_of fun ts => .bind_of fun lacks => ?_
    split
    · infer_instance
    · refine .bind_of fun befores => ?_
      split
      · refine .bind_of fun ys => ?_
        split
        · refine .bind_of fun refused => ?_
          split
          · infer_instance
          · refine .bind_of fun _ => ?_
            refine Within.bind_knowing (fun e => e.1 = r.first ∨ e.1 = r.second) rewritten_mem fun e
              from_rule => ?_
            refine .bind_of fun _ => ?_
            refine Within.bind_knowing (fun c => e.1 = some c) (fun run => (expect_ok.1 run).1)
              fun c hc => ?_
            have := Chain.build_marks (from_rule.elim (fun h => known.1 c (h.symm.trans hc))
              (fun h => known.2 c (h.symm.trans hc))) [] e.2
            infer_instance
        · infer_instance
      · infer_instance
  · infer_instance

theorem applyOnce_named (known : r.Computes) (ts : Graph) : Within .named (r.applyOnce ts) := by
  have := replace?_named known
  unfold applyOnce
  refine Within.seq (@Within.foldlM _ _ _ _ _ (fun acc t => ?_) _) fun _ => inferInstance
  exact .of_parts

theorem computes_all : ∀ r ∈ all, r.Computes := by
  have known : ∀ r ∈ all, ∀ c ∈ r.first.toList ++ r.second.toList, Chain.Computes c := by decide
  intro r hr
  exact ⟨fun c hc => known r hr c (by simp [hc]), fun c hc => known r hr c (by simp [hc])⟩

instance : Within .named (applyEach ts) := by
  unfold applyEach
  refine Within.foldlM_of (fun r hr acc => ?_) (false, ts)
  have := applyOnce_named (computes_all r hr)
  infer_instance

instance (n : Nat) : Within .named (applyAll n ts) := by
  induction n generalizing ts with
  | zero => unfold applyAll; infer_instance
  | succ n ih => unfold applyAll; exact .of_parts

instance : Within .named (fuse ts) := .of_parts

end LayoutRule

/-! ## Odd operands -/

namespace Graph

instance (a : OpId) (n : Nat) (visited layer : List OpId) : ReadOnly (seek a n visited layer) := by
  induction n generalizing visited layer with
  | zero => unfold seek; infer_instance
  | succ n ih => unfold seek; exact .of_parts

instance (ts : List TensorId) : ReadOnly (areConstant ts) := .of_parts

end Graph

namespace Strided

instance (slice : OpId) : ReadOnly (reads o slice) := .of_parts

end Strided

namespace Alignment

instance (s : Side) : ReadOnly s.gains := by unfold Side.gains; exact .of_parts

instance (inner : Int × Int) : ReadOnly (cheapest o inner) := .of_parts

instance (done : Transposed) (flip : Bool) (x : TensorId) :
    Within .marks (operand done flip x) := by
  unfold operand
  exact .of_parts

theorem computes_transposed (batched : (innerAxes c).isSome) (p q : Bool) :
    Chain.Computes (transposedProduct c p q) := by
  cases c <;> first | (cases batched; done) | skip
  all_goals cases p <;> cases q <;> decide

instance (done : Transposed) : Within .named (transposeProduct? done t) := by
  unfold transposeProduct?
  dsimp only
  refine .bind_of fun x => ?_
  split
  · refine .bind_of fun _ => ?_
    split
    · split
      · next inner =>
        have (p q : Bool) (ts : List TensorId) :=
          Chain.build_marks (computes_transposed (Option.isSome_of_eq_some inner) p q) [] ts
        exact .of_parts
      · infer_instance
    · infer_instance
  · infer_instance

instance : Within .named (transposeOdd ts) := .of_parts

end Alignment

end TensorGraph
