import Mathlib
import TensorGraph.Graph.Refine
import TensorGraph.Proofs.FusedElementwise

/-!
# Operators that share a name

Operators are compared field by field.  Each comparison says that two forms are equal, those of
dimensions, of values and of whole operators:

    same a b  ↔  form a = form b
      (same_iff_form, sameFields_iff)

So doing the same is symmetric and transitive, as long as dimensions are not compared with binary
fractions: a fixed dimension is the same as its size, and the size is the same as an equal fraction,
but the dimension is not.  Operators then end with one name exactly if they do the same, whichever
of the known ones is found first (`shareNames_names`).
-/

namespace TensorGraph

open List

namespace Number

def form (a : Number) : Rat ⊕ Bool := a.quantity?.getD (.inr false)

@[simp] theorem quantity?_int (n : Int) : quantity? (.int n) = some (.inl n) := by rw [quantity?]

@[simp] theorem form_int_inj {m n : Int} : form (.int m) = form (.int n) ↔ m = n := by simp [form]

theorem same_iff_form {a b : Number} (left : a.quantity?.isSome) (right : b.quantity?.isSome) :
    a.same b ↔ a.form = b.form := by
  obtain ⟨x, hx⟩ := Option.isSome_iff_exists.1 left
  obtain ⟨y, hy⟩ := Option.isSome_iff_exists.1 right
  simp [same, form, hx, hy]

end Number

/-- What counts of a size: a number, or the values and the name of an open dimension. -/
abbrev Size := (Rat ⊕ Bool) ⊕ List Int × Option String

def Dim.form (d : Dim) : Size := if d.isStatic then .inl (Number.form (.int d.value)) else .inr
    (d.values, d.name)

def Dim.Single (d : Dim) : Prop := d.isStatic → d.values = [d.value]

instance (d : Dim) : Decidable d.Single := inferInstanceAs (Decidable (_ → _))

theorem Dim.form_eq_inl {d : Dim} {n : Int} : d.form = .inl (Number.form (.int n)) ↔ d.isStatic ∧
    d.value = n := by
  cases h : d.isStatic <;> simp [form, h]

theorem Dim.inl_eq_form {d : Dim} {n : Int} : .inl (Number.form (.int n)) = d.form ↔ d.isStatic ∧
    d.value = n := eq_comm.trans form_eq_inl

theorem Dim.same_iff_form {a b : Dim} (left : a.Single) (right : b.Single) : a.same b ↔
    a.form = b.form := by
  rw [same_iff, form, form]
  cases ha : a.isStatic <;> cases hb : b.isStatic <;> simp
  rw [left ha, right hb, singleton_inj]

namespace Value

/-- What counts of a value. -/
inductive Form
  | size (s : Size)
  | list (fs : List Form)
  | tuple (fs : List Form)
  | map (entries : List (Form × Form))
  | atom (v : Value)

mutual

def form (look : DimTable) : Value → Form
  | .bool b => .size (.inl (Number.form (.int (if b then 1 else 0))))
  | .int n => .size (.inl (Number.form (.int n)))
  | .float x => .size (.inl (Number.form (.float x)))
  | .dim d => .size (look d).form
  | .list vs => .list (forms look vs)
  | .tuple vs => .tuple (forms look vs)
  | .map es => .map (entryForms look es)
  | v => .atom v

def forms (look : DimTable) : List Value → List Form
  | [] => []
  | v :: vs => form look v :: forms look vs

def entryForms (look : DimTable) : List (Value × Value) → List (Form × Form)
  | [] => []
  | (k, v) :: es => (form look k, form look v) :: entryForms look es

end

mutual

/-- The floats in a value are numbers, and it holds no dimensions if it may hold floats, else no
floats. -/
def fits (fractions : Bool) : Value → Bool
  | .float x => fractions && (Number.quantity? (.float x)).isSome
  | .dim _ => !fractions
  | .list vs => allFit fractions vs
  | .tuple vs => allFit fractions vs
  | .map es => entriesFit fractions es
  | _ => true

def allFit (fractions : Bool) : List Value → Bool
  | [] => true
  | v :: vs => fits fractions v && allFit fractions vs

def entriesFit (fractions : Bool) : List (Value × Value) → Bool
  | [] => true
  | (k, v) :: es => fits fractions k && fits fractions v && entriesFit fractions es

end

variable {look : DimTable} {fractions : Bool}

mutual

theorem same_iff_form (single : ∀ d, (look d).Single) {a b : Value} (fit : a.fits fractions)
    (fit' : b.fits fractions) :
    same look a b ↔ form look a = form look b := by
  cases a <;> cases b <;>
    simp_all [same, form, fits, Number.ofValue?, Number.same_iff_form, int?, Dim.form_eq_inl,
      Dim.inl_eq_form, Dim.same_iff_form, sameAll_iff_forms, sameEntries_iff_forms]

theorem sameAll_iff_forms (single : ∀ d, (look d).Single) {as bs : List Value}
    (fit : allFit fractions as) (fit' : allFit fractions bs) : sameAll look as bs ↔
    forms look as = forms look bs := by
  cases as <;> cases bs <;> simp_all [sameAll, forms, allFit, same_iff_form, sameAll_iff_forms]

theorem sameEntries_iff_forms (single : ∀ d, (look d).Single) {as bs : List (Value × Value)}
    (fit : entriesFit fractions as) (fit' : entriesFit fractions bs) : sameEntries look as bs ↔
    entryForms look as = entryForms look bs := by
  cases as <;> cases bs <;> simp_all [sameEntries, entryForms, entriesFit, same_iff_form,
    sameEntries_iff_forms]

end

end Value

namespace Graph

open Build

variable {g : Arena} {a b : OpId}

/-- Fixed dimensions have one size, the settings of an operator distinct names, and under each name
there are either no floats or no dimensions, as in the values of tensors. -/
structure Plain (g : Arena) (fractions : Option String → Bool) : Prop where
  single : ∀ d ∈ g.dims, d.Single
  keys : ∀ x ∈ g.ops, (x.params.map (·.1)).Nodup
  settings : ∀ x ∈ g.ops, ∀ e ∈ x.params, e.2.fits (fractions (some e.1))
  values : ∀ t ∈ g.tensors, t.value.fits (fractions none)

def shapeForm (g : Arena) (s : List DimId) : List Size := s.map fun d => (g.dim d).form

def typeForm (g : Arena) (t : TensorId) : String × Value.Form × List Size :=
  ((g.tensor t).dtype, Value.form g.dim (g.tensor t).value, shapeForm g (g.tensor t).shape)

def settingForm (g : Arena) (x : Operator) (k : String) : Option (Option Value.Form) :=
  (x.param? k).map fun v => if k != "gemm_operand_groups" && k != "f_ab_alignment" then
    some (Value.form g.dim v) else none

theorem getD_of_forall {α : Type} [Inhabited α] {P : α → Prop} {xs : Array α} (all : ∀ x ∈ xs, P x)
    (other : P default) (i : Nat) :
    P (xs.getD i default) := by
  by_cases low : i < xs.size
  · simpa [Array.getD, low] using all _ (Array.getElem_mem low)
  · simpa [Array.getD, low] using other

namespace Plain

variable {fractions : Option String → Bool} (plain : Plain g fractions)

include plain

theorem dim (d : DimId) : (g.dim d).Single := getD_of_forall plain.single
    (fun fixed => by cases fixed) d.idx

theorem value (t : TensorId) : (g.tensor t).value.fits (fractions none) :=
  getD_of_forall (P := fun t : Tensor => t.value.fits (fractions none)) plain.values rfl t.idx

theorem shape {as bs : List DimId} : Shape.same g.dim as bs ↔ shapeForm g as = shapeForm g bs := by
  unfold shapeForm
  fun_induction Shape.same g.dim as bs with
  | case1 => simp
  | case2 a as b bs ih => simp [ih, Dim.same_iff_form (plain.dim a) (plain.dim b)]
  | case3 as bs h h' => cases as <;> cases bs <;> grind

theorem type {s t : TensorId} : sameType g s t ↔ typeForm g s = typeForm g t := by
  simp [sameType, typeForm, plain.shape, Value.same_iff_form plain.dim (plain.value s)
    (plain.value t), and_assoc]

end Plain

theorem all_zip_iff {α β : Type} {r : α → α → Bool} {f : α → β} (h : ∀ a b, r a b ↔ f a = f b)
    {as bs : List α} :
    as.length == bs.length && (as.zip bs).all (fun (a, b) => r a b) ↔ as.map f = bs.map f := by
  induction as generalizing bs with
  | nil => cases bs <;> simp
  | cons a as ih =>
    cases bs with
    | nil => simp
    | cons b bs =>
      simp only [length_cons, zip_cons_cons, all_cons, map_cons, cons.injEq, ← ih, ← h]
      simp only [Bool.and_eq_true, beq_iff_eq, Nat.add_right_cancel_iff]
      tauto

theorem length_of_forms {α β : Type} {f : α → β} {s t : Option (List α)}
    (alike : s.map (map f) = t.map (map f)) :
    (s.getD []).length = (t.getD []).length := by
  have lengths := congrArg (fun fs => (fs.getD []).length) alike
  cases s <;> cases t <;> first | rfl | simpa using lengths

def accessorForm (g : Arena) (a : Accessor) :=
  (a.offset, shapeForm g a.seenShape, a.isContiguous, a.fromStrided, a.strideDim,
    a.storedShape.map (shapeForm g), a.seenTotal, a.storedTotal, a.groups)

def fieldsForm (g : Arena) (x : Operator) :=
  (x.kind, x.firstName.isSome, x.outputs.isSome, x.members.isSome, x.params.length, settingForm g x,
    x.slices, x.inputMasks, x.execPath, x.inputAccessors.map (map (accessorForm g)),
    x.outputAccessors.map (map (accessorForm g)),
    x.inputs.map (map (typeForm g)), x.givenInputs.map (map (typeForm g)), x.givenOutputs.map
      (map (typeForm g)),
    x.args.map (map (typeForm g)))

namespace Plain

variable {fractions : Option String → Bool} (plain : Plain g fractions)

include plain

theorem types {s t : Option (List TensorId)} :
    sameTypes? g s t ↔ s.map (map (typeForm g)) = t.map (map (typeForm g)) := by
  cases s <;> cases t <;> simp only [sameTypes?, sameTypes, all_zip_iff fun a b =>
    plain.type (s := a) (t := b)] <;> simp

theorem accessor (a b : Accessor) : a.same g.dim b ↔ accessorForm g a = accessorForm g b := by
  have stored : Accessor.sameShape? g.dim a.storedShape b.storedShape ↔
      a.storedShape.map (shapeForm g) = b.storedShape.map (shapeForm g) := by
    cases a.storedShape <;> cases b.storedShape <;> simp [Accessor.sameShape?, plain.shape]
  simp [Accessor.same, accessorForm, plain.shape, stored, and_assoc]

theorem accessors {s t : Option (List Accessor)} :
    sameAccessors g s t ↔ s.map (map (accessorForm g)) = t.map (map (accessorForm g)) := by
  cases s <;> cases t <;> simp only [sameAccessors, all_zip_iff plain.accessor] <;> simp

theorem setting {o : OpId} :
    ((g.op o).params.map (·.1)).Nodup ∧ ∀ e ∈ (g.op o).params, e.2.fits (fractions (some e.1)) :=
  getD_of_forall (P := fun x : Operator => (x.params.map (·.1)).Nodup ∧
    ∀ e ∈ x.params, e.2.fits (fractions (some e.1)))
    (fun x hx => ⟨plain.keys x hx, plain.settings x hx⟩) ⟨.nil, by intro e he; cases he⟩ o.idx

theorem sameSettings_iff :
    sameSettings g (g.op a) (g.op b) ↔ (g.op a).params.length = (g.op b).params.length ∧
    settingForm g (g.op a) = settingForm g (g.op b) := by
  obtain ⟨nodup, fit⟩ := plain.setting (o := a)
  obtain ⟨nodup', fit'⟩ := plain.setting (o := b)
  have own {k v} : (k, v) ∈ (g.op a).params ↔ (g.op a).param? k = some v :=
    (lookup_eq_some_iff_mem nodup).symm
  have other {k v} : (k, v) ∈ (g.op b).params ↔ (g.op b).param? k = some v :=
    (lookup_eq_some_iff_mem nodup').symm
  simp only [sameSettings, Bool.and_eq_true, beq_iff_eq, all_eq_true]
  refine and_congr_right fun length => ⟨fun all => ?_, fun forms => ?_⟩
  · have entry {k v} (here : (g.op a).param? k = some v) :
        ∃ w, (g.op b).param? k = some w ∧ settingForm g (g.op a) k = settingForm g (g.op b) k := by
      have alike := all _ (own.2 here)
      cases there : (g.op b).param? k with
      | none => simp [there] at alike
      | some w =>
        have forms := Value.same_iff_form (a := v) (b := w) plain.dim (fit (k, v) (own.2 here))
          (fit' (k, w) (other.2 there))
        grind [settingForm]
    have keys : (g.op a).params.map (·.1) ⊆ (g.op b).params.map (·.1) := by
      intro k hk
      obtain ⟨⟨k, v⟩, mem, rfl⟩ := mem_map.1 hk
      obtain ⟨w, there, -⟩ := entry (own.1 mem)
      exact mem_map.2 ⟨(k, w), other.2 there, rfl⟩
    have back : (g.op b).params.map (·.1) ⊆ (g.op a).params.map (·.1) :=
      ((subperm_of_subset nodup keys).perm_of_length_le (by simp [length])).symm.subset
    funext k
    cases here : (g.op a).param? k with
    | some v => exact (entry here).choose_spec.2
    | none =>
      cases there : (g.op b).param? k with
      | none => simp [settingForm, here, there]
      | some w =>
        obtain ⟨⟨k, v⟩, mem, rfl⟩ := mem_map.1 (back (mem_map_of_mem (other.2 there)))
        grind
  · rintro ⟨k, v⟩ mem
    have here := own.1 mem
    have alike := congrFun forms k
    cases there : (g.op b).param? k with
    | none => simp [settingForm, here, there] at alike
    | some w =>
      have forms := Value.same_iff_form (a := v) (b := w) plain.dim (fit (k, v) mem)
        (fit' (k, w) (other.2 there))
      grind [settingForm]

theorem sameFields_iff : sameFields g (g.op a) (g.op b) ↔
    ((g.op a).param? "unique_workspace").isNone ∧ fieldsForm g (g.op a) = fieldsForm g
    (g.op b) := by
  simp only [sameFields, Bool.and_eq_true, beq_iff_eq, plain.types, plain.accessors,
    plain.sameSettings_iff, fieldsForm, Prod.mk.injEq]
  tauto

theorem sameFields_symm (same : sameFields g (g.op a) (g.op b)) :
    sameFields g (g.op b) (g.op a) := by
  rw [plain.sameFields_iff] at *
  obtain ⟨none, alike⟩ := same
  refine ⟨?_, alike.symm⟩
  simp only [fieldsForm, Prod.mk.injEq] at alike
  have setting := congrArg Option.isNone (congrFun alike.2.2.2.2.2.1 "unique_workspace")
  simpa [settingForm, none] using setting

theorem sameFields_trans {c : OpId} (same : sameFields g (g.op a) (g.op b))
    (same' : sameFields g (g.op b) (g.op c)) :
    sameFields g (g.op a) (g.op c) := by
  rw [plain.sameFields_iff] at *
  exact ⟨same.1, same.2.trans same'.2⟩

end Plain

theorem sameOperator_iff : sameOperator g a b ↔ sameFields g (g.op a) (g.op b) ∧
    ((g.op a).kind = "fused_elementwise" → (g.op a).inputList.length = 1 ∧ ∃ m
    n, (g.op a).memberList = [m] ∧ (g.op b).memberList = [n] ∧ sameFields g (g.op m) (g.op n)) := by
  rw [sameOperator]
  simp only [Bool.and_eq_true, Bool.or_eq_true, bne_iff_ne, beq_iff_eq, ← imp_iff_not_or, ne_eq]
  split
  · simp_all
  · next other => grind

namespace Plain

variable {fractions : Option String → Bool} (plain : Plain g fractions)

include plain

theorem sameOperator_symm (same : sameOperator g a b) : sameOperator g b a := by
  rw [sameOperator_iff] at *
  obtain ⟨fields, fused⟩ := same
  refine ⟨plain.sameFields_symm fields, fun kind => ?_⟩
  have forms := (plain.sameFields_iff.1 fields).2
  simp only [fieldsForm, Prod.mk.injEq] at forms
  obtain ⟨one, m, n, hm, hn, members⟩ := fused (forms.1.trans kind)
  refine ⟨?_, n, m, hn, hm, plain.sameFields_symm members⟩
  exact (length_of_forms forms.2.2.2.2.2.2.2.2.2.2.2.1).symm.trans one

theorem sameOperator_trans {c : OpId} (same : sameOperator g a b) (same' : sameOperator g b c) :
    sameOperator g a c := by
  rw [sameOperator_iff] at *
  obtain ⟨fields, fused⟩ := same
  refine ⟨plain.sameFields_trans fields same'.1, fun kind => ?_⟩
  have forms := (plain.sameFields_iff.1 fields).2
  simp only [fieldsForm, Prod.mk.injEq] at forms
  obtain ⟨one, m, n, hm, hn, members⟩ := fused kind
  obtain ⟨-, n', l, hn', hl, members'⟩ := same'.2 (forms.1.symm.trans kind)
  obtain rfl : n = n' := by simpa using hn.symm.trans hn'
  exact ⟨one, m, l, hm, hl, plain.sameFields_trans members members'⟩

end Plain

/-! ## Sharing -/

/-- Names have been shared up to some place: the operators `known` have kept theirs and none does
the same as another, and each of those `done` has the name of a known one that does the same. -/
structure Shared (g : Arena) (done known : List OpId) (h : Arena) : Prop where
  nodes : ∃ ops, h = { g with ops }
  size : h.ops.size = g.ops.size
  fields : ∀ o, h.op o = { g.op o with name := (h.op o).name }
  kept : ∀ o ∈ known, (h.op o).name = (g.op o).name
  later : ∀ o ∉ done, (h.op o).name = (g.op o).name
  passed : known ⊆ done
  apart : known.Pairwise fun p q => ¬ sameOperator g q p
  linked : ∀ o ∈ done, ∃ p ∈ known, (p = o ∨ sameOperator g p o) ∧ (h.op o).name = (g.op p).name

theorem sameOperator_named {h : Arena} (nodes : ∃ ops, h = { g with ops })
    (fields : ∀ o, h.op o = { g.op o with name := (h.op o).name }) :
    sameOperator h a b = sameOperator g a b := by
  obtain ⟨ops, rfl⟩ := nodes
  have same {o p : OpId} : sameFields { g with ops } (Arena.op { g with ops } o)
    (Arena.op { g with ops } p) =
      sameFields g (g.op o) (g.op p) := by
    rw [fields o, fields p]
    rfl
  rw [Bool.eq_iff_iff, sameOperator_iff, sameOperator_iff, fields a, fields b]
  simp only [same]
  exact Iff.rfl

theorem shareName_run {done known : List OpId} {h : Arena} {o : OpId}
    (shared : Shared g done known h) (new : o ∉ done) (inside : o.idx < g.ops.size) :
    ∃ known' h', shareName known o h = .ok known' h' ∧ Shared g (done ++ [o]) known' h' := by
  have same {p : OpId} : sameOperator h p o = sameOperator g p o :=
    sameOperator_named shared.nodes shared.fields
  cases found : known.find? fun p => sameOperator h p o with
  | some p =>
    have alike : sameOperator g p o := same.symm.trans
      (find?_some (p := fun p => sameOperator h p o) found)
    have mem := mem_of_find?_eq_some found
    have op (q : OpId) : (h.modifyOp o fun x => { x with name := (h.op p).name }).op q =
        if q = o then { h.op q with name := (h.op p).name } else h.op q := by
      rw [Arena.op_modifyOp_ite, shared.size]
      simp [inside]
    refine ⟨known, h.modifyOp o fun x => { x with name := (h.op p).name }, ?_, ?_⟩
    · rw [shareName, bind_run get_run]
      simp only [found]
      rfl
    · have other {q : OpId} (hq : q ∈ done) : q ≠ o := fun eq => new (eq ▸ hq)
      refine ⟨?_, by simp [Arena.modifyOp,
        shared.size], fun q => ?_, fun q hq => ?_, fun q hq => ?_,
        fun q hq => mem_append_left _ (shared.passed hq), shared.apart, fun q hq => ?_⟩
      · obtain ⟨ops, rfl⟩ := shared.nodes
        exact ⟨_, rfl⟩
      · rw [op]
        split
        · rw [shared.fields q]
        · exact shared.fields q
      · rw [op, if_neg (other (shared.passed hq)), shared.kept q hq]
      · simp only [mem_append, mem_singleton, not_or] at hq
        rw [op, if_neg hq.2, shared.later q hq.1]
      · rcases mem_append.1 hq with hq | hq
        · rw [op, if_neg (other hq)]
          exact shared.linked q hq
        · obtain rfl := mem_singleton.1 hq
          exact ⟨p, mem, .inr alike, by rw [op, if_pos rfl, ← shared.kept p mem]⟩
  | none =>
    refine ⟨o :: known, h, ?_, ?_⟩
    · rw [shareName, bind_run get_run]
      simp only [found]
      rfl
    · refine ⟨shared.nodes, shared.size, shared.fields,
        forall_mem_cons.2 ⟨shared.later o new, shared.kept⟩, fun q hq => ?_, ?_, ?_, fun q hq => ?_⟩
      · exact shared.later q fun mem => hq (mem_append_left _ mem)
      · exact cons_subset.2 ⟨by simp, fun q hq => mem_append_left _ (shared.passed hq)⟩
      · exact pairwise_cons.2 ⟨fun q hq => same ▸ find?_eq_none.1 found q hq, shared.apart⟩
      · rcases mem_append.1 hq with hq | hq
        · obtain ⟨p, mem, rest⟩ := shared.linked q hq
          exact ⟨p, mem_cons_of_mem _ mem, rest⟩
        · obtain rfl := mem_singleton.1 hq
          exact ⟨q, mem_cons_self, .inl rfl, shared.later q new⟩

theorem shareNames_shared {ts : Graph} (inside : ∀ o ∈ sources g ts, o.idx < g.ops.size) :
    ∃ known h, shareNames ts g = .ok () h ∧ Shared g (sources g ts) known h := by
  have nodup : (sources g ts).Nodup := nodup_distinct _
  obtain ⟨known, h, run, shared⟩ := foldlM_arrives (g := g) (l := sources g ts) (f := shareName)
    (b := []) (Shared g)
    (fun done o rest split known h shared => shareName_run shared
      (fun mem => by grind [nodup_append.1 (split ▸ nodup)]) (inside o (by simp [split])))
    ⟨⟨g.ops, rfl⟩, rfl, fun _ => rfl, by simp, fun _ _ => rfl, by simp, .nil, by simp⟩
  exact ⟨known, h, by rw [shareNames, bind_run get_run, bind_run run]; rfl, shared⟩

/-- Doing the same is symmetric and transitive unless dimensions are compared with fractions; then
sharing returns, and two operators end with one name exactly if they do the same. -/
theorem shareNames_names {fractions : Option String → Bool} (plain : Plain g fractions) (ts : Graph)
    (inside : ∀ o ∈ sources g ts, o.idx < g.ops.size)
    (distinct : ((sources g ts).map fun o => (g.op o).name).Nodup) :
    (∀ a b, sameOperator g a b → sameOperator g b a) ∧
      (∀ a b c, sameOperator g a b → sameOperator g b c → sameOperator g a c) ∧
      ∃ h, shareNames ts g = .ok () h ∧ ∀ a ∈ sources g ts, ∀ b ∈ sources g ts, a ≠ b →
        ((h.op a).name = (h.op b).name ↔ sameOperator g a b) := by
  have symm := fun a b => plain.sameOperator_symm (a := a) (b := b)
  have chain := fun a b c => plain.sameOperator_trans (a := a) (b := b) (c := c)
  obtain ⟨known, h, run, shared⟩ := shareNames_shared inside
  refine ⟨symm, chain, h, run, fun a ha b hb ne => ?_⟩
  obtain ⟨p, hp, pa, nameA⟩ := shared.linked a ha
  obtain ⟨q, hq, qb, nameB⟩ := shared.linked b hb
  have memP := shared.passed hp
  have memQ := shared.passed hq
  have names : (h.op a).name = (h.op b).name ↔ p = q := by
    rw [nameA, nameB]
    exact ⟨inj_on_of_nodup_map distinct memP memQ, fun eq => by rw [eq]⟩
  rw [names]
  constructor
  · rintro rfl
    grind
  · intro same
    by_contra apart
    have : Std.Symm fun p q => ¬ sameOperator g q p :=
      ⟨fun p q differ same => differ (symm p q same)⟩
    have alike : sameOperator g p q := by grind
    exact shared.apart.forall hp hq apart (symm p q alike)

/-- A fixed dimension and its size, each with the same fraction beside it, and the size with another
number. -/
theorem shareNames_names_sizes :
    let setting (name : String) (size scale : Value) : Operator :=
      { (default : Operator) with name := some name, params := [("size", size), ("scale", scale)] }
    let g := Arena.ofNodes [1] [([], [0], []), ([], [1], []), ([], [2], [])]
      #[setting "a" (.dim ⟨0⟩) (.float 0.5), setting "b" (.int 1) (.float 0.5),
        setting "c" (.int 1) (.int 2)]
    ∃ h, shareNames [⟨0⟩, ⟨1⟩, ⟨2⟩] g = .ok () h ∧ (h.op ⟨0⟩).name = (h.op ⟨1⟩).name ∧
      (h.op ⟨1⟩).name ≠ (h.op ⟨2⟩).name := by
  intro setting g
  have plain : Plain g (· == some "scale") := ⟨by decide, by decide, by decide, by decide⟩
  obtain ⟨-, -, h, run, names⟩ := shareNames_names plain [⟨0⟩, ⟨1⟩, ⟨2⟩] (by decide) (by decide)
  exact ⟨h, run, (names ⟨0⟩ (by decide) ⟨1⟩ (by decide) (by decide)).2 (by decide),
    fun eq => absurd ((names ⟨1⟩ (by decide) ⟨2⟩ (by decide) (by decide)).1 eq) (by decide)⟩

end Graph

end TensorGraph
