import UnitScript.Proofs.Hazard.Escapes
import UnitScript.Proofs.Hazard.Sites

/-!
# Captures are exact

What a function uses and what it declares are said here by the syntax alone, without the order in which
the uses are collected and the list in which the locals are gathered. The captures of a function are
then its first uses of the names that it does not declare and an enclosing function does, each with the
nearest such function, and every one of them is reported once.
-/

namespace UnitScript

namespace Node

/-- A node uses the names that it reads, assigns, calls or indexes, and those that its dotted paths
stand for. The body of a function is not part of the node around it. -/
inductive Uses : Node → Use → Prop
  | name {p x} : Uses (ident p x) ⟨x, p⟩
  | left {p op l r w u} : op ≠ .declare → Uses l u → Uses (binary p op l r w) u
  | right {p op l r w u} : Uses r u → Uses (binary p op l r w) u
  | base {p x i} : Uses (index p x i) ⟨x, p⟩
  | subscript {p x i u} : Uses i u → Uses (index p x i) u
  | callee {p f args u} : Uses f u → Uses (call p f args) u
  | arg {p f args a u} : a ∈ args → Uses a u → Uses (call p f args) u
  | path {p o m x called} : (property p o m).pathName? = some (x, called) →
    Uses (property p o m) ⟨x, p⟩
  | pathArg {p o m a u} : a ∈ m.pathArgs → Uses a u → Uses (property p o m) u
  | element {p es e u} : e ∈ es → Uses e u → Uses (array p es) u
  | result {p v u} : Uses v u → Uses (ret p v) u
  | condition {p t yes no u} : Uses t u → Uses (cond p t yes no) u
  | yes {p t yes no n u} : n ∈ yes → Uses n u → Uses (cond p t yes no) u
  | no {p t yes no n u} : n ∈ no → Uses n u → Uses (cond p t yes no) u
  | test {p t body u} : Uses t u → Uses (loop p t body) u
  | round {p t body n u} : n ∈ body → Uses n u → Uses (loop p t body) u

/-- A node declares the names of its variables and functions, in branches and loops too, but not in
the bodies of the functions. -/
inductive Declares : Node → Name → Prop
  | binding {p q x r w} : Declares (binary p .declare (ident q x) r w) x
  | function {p x params result body} : Declares (func p x params result body) x
  | yes {p t yes no n x} : n ∈ yes → Declares n x → Declares (cond p t yes no) x
  | no {p t yes no n x} : n ∈ no → Declares n x → Declares (cond p t yes no) x
  | round {p t body n x} : n ∈ body → Declares n x → Declares (loop p t body) x

attribute [local simp] uses usesAll declared declaredAll

theorem mem_usesAll {u : Use} {ns : List Node} : u ∈ usesAll ns ↔ ∃ n ∈ ns, u ∈ n.uses := by
  induction ns with
  | nil => simp
  | cons n rest ih => simp [ih]

theorem mem_declaredAll {x : Name} {ns : List Node} :
    x ∈ declaredAll ns ↔ ∃ n ∈ ns, x ∈ n.declared := by
  induction ns with
  | nil => simp
  | cons n rest ih => simp [ih]

theorem Uses.mem_uses {n : Node} {u : Use} (h : n.Uses u) : u ∈ n.uses := by
  induction h with
  | left hop _ ih => simp [hop, ih]
  | path hpath => simp [hpath]
  | pathArg ha _ ih =>
    rw [uses, List.mem_append, ← usesAll_pathArgs]
    exact .inr (mem_usesAll.mpr ⟨_, ha, ih⟩)
  | arg ha _ ih =>
    rw [uses, List.mem_append]
    exact .inr (mem_usesAll.mpr ⟨_, ha, ih⟩)
  | element ha _ ih => exact mem_usesAll.mpr ⟨_, ha, ih⟩
  | yes ha _ ih =>
    rw [uses, List.append_assoc]
    exact List.mem_append_right _ (List.mem_append_left _ (mem_usesAll.mpr ⟨_, ha, ih⟩))
  | no ha _ ih | round ha _ ih => exact List.mem_append_right _ (mem_usesAll.mpr ⟨_, ha, ih⟩)
  | _ => simp_all

theorem Declares.mem_declared {n : Node} {x : Name} (h : n.Declares x) : x ∈ n.declared := by
  induction h with
  | binding | function => simp
  | yes hn _ ih => exact List.mem_append_left _ (mem_declaredAll.mpr ⟨_, hn, ih⟩)
  | no hn _ ih => exact List.mem_append_right _ (mem_declaredAll.mpr ⟨_, hn, ih⟩)
  | round hn _ ih => exact mem_declaredAll.mpr ⟨_, hn, ih⟩

mutual

theorem uses_of_mem {u : Use} : ∀ n : Node, u ∈ n.uses → n.Uses u
  | ident p x, h => by
    obtain rfl := List.mem_singleton.mp h
    exact .name
  | binary p op l r w, h => by
    rw [uses, List.mem_append] at h
    obtain h | h := h
    · split at h
      · cases h
      · next hop => exact .left hop (uses_of_mem l h)
    · exact .right (uses_of_mem r h)
  | index p x i, h => by
    obtain rfl | h := List.mem_cons.mp h
    · exact .base
    · exact .subscript (uses_of_mem i h)
  | call p f args, h => by
    rw [uses, List.mem_append] at h
    obtain h | h := h
    · exact .callee (uses_of_mem f h)
    · obtain ⟨a, ha, hu⟩ := uses_of_mem_all args h
      exact .arg ha hu
  | property p o m, h => by
    rw [uses, List.mem_append] at h
    obtain h | h := h
    · split at h
      · next x called hpath =>
        obtain rfl := List.mem_singleton.mp h
        exact .path hpath
      · cases h
    · obtain ⟨a, ha, hu⟩ := uses_of_mem_path m h
      exact .pathArg ha hu
  | array p es, h => by
    obtain ⟨e, he, hu⟩ := uses_of_mem_all es h
    exact .element he hu
  | ret p v, h => .result (uses_of_mem v h)
  | cond p t yes no, h => by
    rw [uses, List.mem_append, List.mem_append] at h
    obtain (h | h) | h := h
    · exact .condition (uses_of_mem t h)
    · obtain ⟨n, hn, hu⟩ := uses_of_mem_all yes h
      exact .yes hn hu
    · obtain ⟨n, hn, hu⟩ := uses_of_mem_all no h
      exact .no hn hu
  | loop p t body, h => by
    rw [uses, List.mem_append] at h
    obtain h | h := h
    · exact .test (uses_of_mem t h)
    · obtain ⟨n, hn, hu⟩ := uses_of_mem_all body h
      exact .round hn hu
  | number .., h | string .., h | func .., h | pass _, h | importUnit .., h | param _, h | type _, h
  | program _, h | missing, h => by cases h

theorem uses_of_mem_all {u : Use} : ∀ ns : List Node, u ∈ usesAll ns → ∃ n ∈ ns, n.Uses u
  | [], h => by cases h
  | n :: rest, h => by
    rw [usesAll, List.mem_append] at h
    obtain h | h := h
    · exact ⟨n, List.mem_cons_self, uses_of_mem n h⟩
    · obtain ⟨n', hn, hu⟩ := uses_of_mem_all rest h
      exact ⟨n', List.mem_cons_of_mem _ hn, hu⟩

theorem uses_of_mem_path {u : Use} : ∀ m : Node, u ∈ m.pathUses → ∃ a ∈ m.pathArgs, a.Uses u
  | property p o m, h => uses_of_mem_path m h
  | call p f args, h => uses_of_mem_all args h
  | number .., h | string .., h | ident .., h | binary .., h | index .., h | array .., h | cond .., h
  | loop .., h | ret .., h | func .., h | pass _, h | importUnit .., h | param _, h | type _, h
  | program _, h | missing, h => by cases h

end

mutual

theorem declares_of_mem {x : Name} : ∀ n : Node, x ∈ n.declared → n.Declares x
  | binary p op l r w, h => by
    cases op
    case declare =>
      cases l
      case ident =>
        obtain rfl := List.mem_singleton.mp h
        exact .binding
      all_goals cases h
    all_goals cases h
  | func .., h => by
    obtain rfl := List.mem_singleton.mp h
    exact .function
  | cond p t yes no, h => by
    rw [declared, List.mem_append] at h
    obtain h | h := h
    · obtain ⟨n, hn, hx⟩ := declares_of_mem_all yes h
      exact .yes hn hx
    · obtain ⟨n, hn, hx⟩ := declares_of_mem_all no h
      exact .no hn hx
  | loop p t body, h => by
    obtain ⟨n, hn, hx⟩ := declares_of_mem_all body h
    exact .round hn hx
  | number .., h | string .., h | ident .., h | index .., h | array .., h | call .., h | property .., h
  | ret .., h | pass _, h | importUnit .., h | param _, h | type _, h | program _, h | missing, h => by
    cases h

theorem declares_of_mem_all {x : Name} : ∀ ns : List Node, x ∈ declaredAll ns → ∃ n ∈ ns, n.Declares x
  | [], h => by cases h
  | n :: rest, h => by
    rw [declaredAll, List.mem_append] at h
    obtain h | h := h
    · exact ⟨n, List.mem_cons_self, declares_of_mem n h⟩
    · obtain ⟨n', hn, hx⟩ := declares_of_mem_all rest h
      exact ⟨n', List.mem_cons_of_mem _ hn, hx⟩

end

end Node

structure Declaration where
  pos : Position
  name : Name
  params : List Param
  body : List Node

namespace Declaration

/-- Parameters and the names declared in the body, functions inside of it left out. -/
def IsLocal (d : Declaration) (x : Name) : Prop :=
  x ∈ d.params.map Param.name ∨ ∃ n ∈ d.body, n.Declares x

def FirstUse (d : Declaration) (u : Use) : Prop :=
  ∃ before after, Node.usesAll d.body = before ++ u :: after ∧ ∀ v ∈ before, v.name ≠ u.name

/-- The nearest of the functions around, innermost first, that has the local is called `owner`. -/
def NearestOwner (around : List Declaration) (x owner : Name) : Prop :=
  ∃ inner d outer, around = inner ++ d :: outer ∧ d.name = owner ∧ d.IsLocal x ∧
    ∀ e ∈ inner, ¬e.IsLocal x

/-- What the function captures from those around it. -/
def Captures (d : Declaration) (around : List Declaration) (c : Capture) : Prop :=
  d.FirstUse ⟨c.name, c.pos⟩ ∧ ¬d.IsLocal c.name ∧ c.name ≠ d.name ∧ NearestOwner around c.name c.owner

def toLocals (d : Declaration) : FunctionLocals := .of d.name d.pos d.params d.body

/-- What is recorded of a function with the functions around it. -/
def info (d : Declaration) (around : List Declaration) : FunctionInfo :=
  ⟨d.name, d.pos, d.toLocals.locals, d.toLocals.captures (around.map toLocals)⟩

theorem mem_extend {x : Name} (names more : List Name) :
    x ∈ FunctionLocals.extend names more ↔ x ∈ names ∨ x ∈ more := by
  induction more generalizing names with
  | nil => simp [FunctionLocals.extend]
  | cons first rest ih =>
    rw [FunctionLocals.extend, ih]
    split
    · next hmem => grind
    · simp [or_assoc]

theorem mem_locals (d : Declaration) (x : Name) : x ∈ d.toLocals.locals ↔ d.IsLocal x := by
  rw [toLocals, FunctionLocals.of, mem_extend, IsLocal]
  refine or_congr_right ⟨Node.declares_of_mem_all d.body, ?_⟩
  rintro ⟨n, hn, hx⟩
  exact Node.mem_declaredAll.mpr ⟨n, hn, hx.mem_declared⟩

/-! ## First uses -/

theorem firstUses_sublist (seen : List Name) (us : List Use) :
    (FunctionLocals.firstUses seen us).Sublist us := by
  induction us generalizing seen with
  | nil => exact .refl _
  | cons u rest ih =>
    rw [FunctionLocals.firstUses]
    split
    · exact (ih seen).cons _
    · exact (ih _).cons_cons _

theorem mem_firstUses (seen : List Name) (us : List Use) (u : Use) :
    u ∈ FunctionLocals.firstUses seen us ↔ u.name ∉ seen ∧
      ∃ before after, us = before ++ u :: after ∧ ∀ v ∈ before, v.name ≠ u.name := by
  induction us generalizing seen with
  | nil => simp [FunctionLocals.firstUses]
  | cons first rest ih =>
    have hsplit : (∃ before after, first :: rest = before ++ u :: after ∧ ∀ v ∈ before, v.name ≠ u.name) ↔
        u = first ∨ (first.name ≠ u.name ∧
          ∃ before after, rest = before ++ u :: after ∧ ∀ v ∈ before, v.name ≠ u.name) := by
      constructor
      · rintro ⟨before, after, hus, hbefore⟩
        cases before with
        | nil => exact .inl (List.cons.inj hus).1.symm
        | cons v before =>
          obtain ⟨rfl, hrest⟩ := List.cons.inj hus
          exact .inr ⟨hbefore _ List.mem_cons_self, before, after, hrest,
            fun v hv => hbefore v (List.mem_cons_of_mem _ hv)⟩
      · rintro (rfl | ⟨hfirst, before, after, rfl, hbefore⟩)
        · exact ⟨[], rest, rfl, by simp⟩
        · exact ⟨first :: before, after, rfl, by simpa using ⟨hfirst, hbefore⟩⟩
    rw [FunctionLocals.firstUses, hsplit]
    split
    · next hseen =>
      rw [ih]
      grind
    · next hseen =>
      rw [List.mem_cons, ih, List.mem_cons]
      grind

theorem firstUses_nodup (seen : List Name) (us : List Use) :
    ((FunctionLocals.firstUses seen us).map (·.name)).Nodup := by
  induction us generalizing seen with
  | nil => exact List.nodup_nil
  | cons u rest ih =>
    rw [FunctionLocals.firstUses]
    split
    · exact ih seen
    · rw [List.map_cons, List.nodup_cons]
      refine ⟨fun hmem => ?_, ih _⟩
      obtain ⟨v, hv, hname⟩ := List.mem_map.mp hmem
      exact ((mem_firstUses _ _ _).mp hv).1 (hname ▸ List.mem_cons_self)

/-! ## The captures of a declaration -/

variable (d : Declaration) (around : List Declaration)

theorem nearestOwner_iff (x owner : Name) :
    NearestOwner around x owner ↔
      ∃ g, (around.map toLocals).find? (fun g => x ∈ g.locals) = some g ∧ g.name = owner := by
  rw [List.find?_map]
  simp only [Option.map_eq_some_iff, List.find?_eq_some_iff_append, Function.comp_apply,
    decide_eq_true_eq, mem_locals, Bool.not_eq_true', decide_eq_false_iff_not]
  constructor
  · rintro ⟨inner, e, outer, rfl, rfl, hlocal, hinner⟩
    exact ⟨_, ⟨e, ⟨hlocal, inner, outer, rfl, hinner⟩, rfl⟩, rfl⟩
  · rintro ⟨_, ⟨e, ⟨hlocal, inner, outer, rfl, hinner⟩, rfl⟩, hname⟩
    exact ⟨inner, e, outer, rfl, hname, hlocal, hinner⟩

theorem mem_captures_iff (c : Capture) : c ∈ (d.info around).captures ↔ d.Captures around c := by
  rw [info, FunctionLocals.captures, List.mem_filterMap, Captures, nearestOwner_iff, FirstUse]
  constructor
  · rintro ⟨u, hu, hc⟩
    split at hc
    · cases hc
    · next hforeign =>
      obtain ⟨g, hg, rfl⟩ := Option.map_eq_some_iff.mp hc
      rw [not_or, mem_locals] at hforeign
      exact ⟨((mem_firstUses _ _ _).mp hu).2, hforeign.1, hforeign.2, g, hg, rfl⟩
  · rintro ⟨hfirst, hlocal, hname, g, hg, howner⟩
    refine ⟨⟨c.name, c.pos⟩, (mem_firstUses _ _ _).mpr ⟨List.not_mem_nil, hfirst⟩, ?_⟩
    rw [if_neg (by rw [not_or, mem_locals]; exact ⟨hlocal, hname⟩), hg, Option.map_some, howner]

theorem filterMap_map_sublist {α β : Type} {f : α → Option β} {g : β → α}
    (h : ∀ a b, f a = some b → g b = a) (l : List α) : ((l.filterMap f).map g).Sublist l := by
  induction l with
  | nil => exact .refl _
  | cons a rest ih =>
    cases hf : f a with
    | none =>
      rw [List.filterMap_cons_none hf]
      exact ih.cons _
    | some b =>
      rw [List.filterMap_cons_some hf, List.map_cons, h a b hf]
      exact ih.cons_cons _

theorem captures_sublist :
    ((d.info around).captures.map fun c => (⟨c.name, c.pos⟩ : Use)).Sublist
      (FunctionLocals.firstUses [] (Node.usesAll d.body)) := by
  refine filterMap_map_sublist (fun u c hc => ?_) _
  split at hc
  · cases hc
  · obtain ⟨g, -, rfl⟩ := Option.map_eq_some_iff.mp hc
    rfl

theorem captures_nodup : ((d.info around).captures.map (·.name)).Nodup := by
  have hsub := (d.captures_sublist around).map (·.name)
  rw [List.map_map] at hsub
  exact hsub.nodup (firstUses_nodup [] _)

end Declaration

namespace Node

mutual

/-- The functions that a node declares inside the functions `around`, each with those around it. -/
def sites (around : List Declaration) : Node → List (Declaration × List Declaration)
  | cond _ _ yes no => sitesAll around yes ++ sitesAll around no
  | func pos name params _ body =>
    (⟨pos, name, params, body⟩, around) :: sitesAll (⟨pos, name, params, body⟩ :: around) body
  | loop _ _ body => sitesAll around body
  | _ => []

def sitesAll (around : List Declaration) : List Node → List (Declaration × List Declaration)
  | [] => []
  | n :: rest => sites around n ++ sitesAll around rest

end

mutual

theorem ofNode_eq_sites : ∀ (n : Node) (around : List Declaration),
    FunctionInfo.ofNode (around.map Declaration.toLocals) n =
      (n.sites around).map fun s => s.1.info s.2
  | func pos name params _ body, around =>
    congrArg _ (ofNodes_eq_sites body (⟨pos, name, params, body⟩ :: around))
  | cond _ _ yes no, around => by
    rw [FunctionInfo.ofNode, ofNodes_eq_sites yes, ofNodes_eq_sites no, sites, List.map_append]
  | loop _ _ body, around => ofNodes_eq_sites body around
  | number .., _ | string .., _ | ident .., _ | binary .., _ | index .., _ | array .., _ | call .., _
  | property .., _ | ret .., _ | pass _, _ | importUnit .., _ | param _, _ | type _, _
  | program _, _ | missing, _ => rfl

theorem ofNodes_eq_sites : ∀ (ns : List Node) (around : List Declaration),
    FunctionInfo.ofNodes (around.map Declaration.toLocals) ns =
      (sitesAll around ns).map fun s => s.1.info s.2
  | [], _ => rfl
  | n :: rest, around => by
    rw [FunctionInfo.ofNodes, ofNode_eq_sites n, ofNodes_eq_sites rest, sitesAll, List.map_append]

end

end Node

namespace HazardReport

theorem functions_perm (prelude : Prelude) (body : List Node) :
    (ofProgram prelude body).functions.Perm
      ((Node.sitesAll [] body).map fun s => s.1.info s.2) := by
  rw [← Node.ofNodes_eq_sites]
  exact List.mergeSort_perm _ _

/-- The walk for escaped names reports no captures. -/
theorem captured_perm (prelude : Prelude) (body : List Node) :
    ((ofProgram prelude body).hazards.filter fun h => h.kind = .capturedLocal).Perm
      ((ofProgram prelude body).functions.flatMap FunctionInfo.hazards) := by
  have hcaptured : ((FunctionInfo.ofProgram body).flatMap FunctionInfo.hazards).filter
      (fun h => h.kind = .capturedLocal) = (FunctionInfo.ofProgram body).flatMap FunctionInfo.hazards := by
    refine List.filter_eq_self.mpr fun h hmem => ?_
    simp [kind_of_mem_hazards hmem]
  have hwalk : (Escape.hazards prelude body).filter (fun h => h.kind = .capturedLocal) = [] := by
    refine List.filter_eq_nil_iff.mpr fun h hmem => ?_
    rw [Escape.hazards_eq_run, List.mem_reverse] at hmem
    simpa using Escape.Walk.kind_of_mem_found_run prelude _ hmem
  refine ((List.mergeSort_perm _ _).filter _).trans ?_
  rw [List.filter_append, hcaptured, hwalk, List.append_nil]
  exact .refl _

end HazardReport

/-! ## A function that uses two locals of the one around it -/

def innerDeclaration : Declaration where
  pos := ⟨1, 33⟩
  name := "inner"
  params := []
  body := [.ret ⟨1, 43⟩ (.binary ⟨1, 52⟩ .add (.ident ⟨1, 50⟩ "x") (.ident ⟨1, 54⟩ "y") none)]

def outerDeclaration : Declaration where
  pos := ⟨1, 6⟩
  name := "outer"
  params := [⟨⟨1, 12⟩, "x", none⟩]
  body :=
    [.func ⟨1, 33⟩ "inner" [] none innerDeclaration.body,
      .binary ⟨1, 20⟩ .declare (.ident ⟨1, 22⟩ "y") (.number ⟨1, 26⟩ 2) none]

def capturingBody : List Node :=
  [.func ⟨1, 6⟩ "outer" outerDeclaration.params none outerDeclaration.body]

end UnitScript
