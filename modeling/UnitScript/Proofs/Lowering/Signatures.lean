import UnitScript.Proofs.Lowering.Operations
import UnitScript.Proofs.Machine.Exchange
import UnitScript.Proofs.NameMap
import UnitScript.Proofs.Syntax.Names

/-!
# The functions that a program declares

Each function of a program has a signature. A program keeps to the signatures when every call is one of
a builtin or of a function that is complete in front of the call, with as many arguments as it takes,
and when the returns of a function give a value if and only if its result is one. If no name is
declared twice, compilation has recorded the result of a function under its name wherever it is called.
-/

namespace UnitScript

namespace Node

mutual

/-- The signatures of the functions in a tree, in the order in which they are completed. -/
def functions : Node → List Signature
  | func _ name params result body =>
    functionsAll body ++ [⟨name, params.length, .orNumber result⟩]
  | cond _ _ yes no => functionsAll yes ++ functionsAll no
  | loop _ _ body => functionsAll body
  | _ => []

def functionsAll : List Node → List Signature
  | [] => []
  | n :: rest => n.functions ++ functionsAll rest

end

mutual

/-- The names of the functions, parameters and variables that a tree declares, at all its levels. -/
def introduced : Node → List Name
  | binary _ .declare (ident _ name) _ _ => [name]
  | func _ name params _ body => params.map (·.name) ++ introducedAll body ++ [name]
  | cond _ _ yes no => introducedAll yes ++ introducedAll no
  | loop _ _ body => introducedAll body
  | _ => []

def introducedAll : List Node → List Name
  | [] => []
  | n :: rest => n.introduced ++ introducedAll rest

end

mutual

theorem functions_sublist : ∀ n : Node, (n.functions.map (·.name)).Sublist n.introduced
  | func _ name params _ body => by
    rw [functions, introduced, List.map_append]
    exact ((functionsAll_sublist body).trans (List.sublist_append_right _ _)).append (.refl _)
  | cond _ _ yes no => by
    rw [functions, introduced, List.map_append]
    exact (functionsAll_sublist yes).append (functionsAll_sublist no)
  | loop _ _ body => functionsAll_sublist body
  | binary .. | number .. | string .. | ident .. | array .. | index .. | property .. | call ..
  | ret .. | pass _ | importUnit .. | param _ | type _ | program _ | missing => List.nil_sublist _

theorem functionsAll_sublist : ∀ ns : List Node,
    ((functionsAll ns).map (·.name)).Sublist (introducedAll ns)
  | [] => .refl _
  | n :: rest => by
    rw [functionsAll, introducedAll, List.map_append]
    exact (functions_sublist n).append (functionsAll_sublist rest)

end

mutual

theorem names_of_introduced : ∀ (n : Node) {x : Name}, x ∈ n.introduced → x ∈ n.names
  | binary _ op left _ _, x, h => by
    cases op with
    | declare =>
      cases left with
      | ident =>
        cases List.mem_singleton.1 h
        simp [names]
      | _ => cases h
    | _ => cases h
  | func _ name params _ body, x, h => by
    simp only [introduced, List.mem_append, List.mem_singleton] at h
    simp only [names, List.cons_append, List.mem_cons, List.mem_append]
    rcases h with (h | h) | h
    · exact .inr (.inl h)
    · exact .inr (.inr (namesAll_of_introducedAll body h))
    · exact .inl h
  | cond _ _ yes no, x, h => by
    simp only [introduced, List.mem_append] at h
    simp only [names, List.mem_append]
    rcases h with h | h
    · exact .inl (.inr (namesAll_of_introducedAll yes h))
    · exact .inr (namesAll_of_introducedAll no h)
  | loop _ _ body, x, h => List.mem_append_right _ (namesAll_of_introducedAll body h)
  | number .., _, h | string .., _, h | ident .., _, h | array .., _, h | index .., _, h
  | property .., _, h | call .., _, h | ret .., _, h | pass _, _, h | importUnit .., _, h
  | param _, _, h | type _, _, h | program _, _, h | missing, _, h => by cases h

theorem namesAll_of_introducedAll : ∀ (ns : List Node) {x : Name}, x ∈ introducedAll ns →
    x ∈ namesAll ns
  | [], _, h => by cases h
  | n :: rest, x, h => by
    rcases List.mem_append.1 h with h | h
    · exact List.mem_append_left _ (names_of_introduced n h)
    · exact List.mem_append_right _ (namesAll_of_introducedAll rest h)

end

def isKnownCall (known : List Signature) (name : Name) (count : Nat) : Bool :=
  known.any fun s => s.name = name && s.arity = count

mutual

/-- Every call in a tree is one of a signature that is known where it stands: in front of the tree, or
because the function has been completed in it. -/
def callsKnown (known : List Signature) : Node → Bool
  | array _ elements => allCallsKnown known elements
  | binary _ _ left right _ => left.callsKnown known && right.callsKnown known
  | index _ _ i => i.callsKnown known
  | call _ callee args =>
    (match callee.pathName? with
      | some (name, false) => isKnownCall known name args.length
      | _ => false) &&
      allCallsKnown known args
  | property pos object member =>
    (match (property pos object member).pathName? with
      | some (name, true) => isKnownCall known name member.pathArgs.length
      | _ => true) &&
      member.pathCallsKnown known
  | cond _ test yes no =>
    test.callsKnown known && blockCallsKnown known yes &&
      blockCallsKnown (known ++ functionsAll yes) no
  | loop _ test body => test.callsKnown known && blockCallsKnown known body
  | ret _ value => value.callsKnown known
  | func _ _ _ _ body => blockCallsKnown known body
  | _ => true

def pathCallsKnown (known : List Signature) : Node → Bool
  | property _ _ member => member.pathCallsKnown known
  | call _ _ args => allCallsKnown known args
  | _ => true

def allCallsKnown (known : List Signature) : List Node → Bool
  | [] => true
  | n :: rest => n.callsKnown known && allCallsKnown known rest

/-- In a block the functions of each statement are known behind it. -/
def blockCallsKnown (known : List Signature) : List Node → Bool
  | [] => true
  | n :: rest => n.callsKnown known && blockCallsKnown (known ++ n.functions) rest

end

theorem allCallsKnown_iff {known : List Signature} {ns : List Node} :
    allCallsKnown known ns = true ↔ ∀ n ∈ ns, n.callsKnown known = true := by
  induction ns with
  | nil => simp [allCallsKnown]
  | cons n rest ih => simp [allCallsKnown, ih]

mutual

/-- The returns of a function that is to leave `leaves` values give a value if that is one, and none
otherwise; at the top level, where nothing is said, they are free. The same holds of the functions in
the tree. -/
def returnsMatch (leaves : Option Nat) : Node → Bool
  | ret _ missing => leaves.all (· == 0)
  | ret _ _ => leaves.all (· == 1)
  | cond _ _ yes no => allReturnsMatch leaves yes && allReturnsMatch leaves no
  | loop _ _ body => allReturnsMatch leaves body
  | func _ _ _ result body => allReturnsMatch (some (Kind.orNumber result).leaves) body
  | _ => true

def allReturnsMatch (leaves : Option Nat) : List Node → Bool
  | [] => true
  | n :: rest => n.returnsMatch leaves && allReturnsMatch leaves rest

end

end Node

namespace Symbols

theorem kinds_leave (s : Symbols) : s.leave.kinds = s.kinds := by
  unfold leave
  split <;> rfl

theorem kinds_of_declare {s s' : Symbols} {name : Name} {kind : Kind}
    (h : s.declare name kind = .ok s') : s'.kinds = s.kinds.insert name kind := by
  unfold declare at h
  split at h
  · cases h
  · cases h
    rfl

end Symbols

namespace Lowering

variable {ctx : Context} {st mid st' : State} {code : Code} {entries more : List (Name × Kind)}
  {functions : List Signature} {names : List Name} {pos : Position} {name : Name}

/-! ## What is recorded -/

/-- From one state to the other the kinds of some names have been recorded. -/
def Records (st st' : State) (entries : List (Name × Kind)) : Prop :=
  st'.symbols.kinds = entries.foldl (fun m e => m.insert e.1 e.2) st.symbols.kinds

theorem Records.append (h : Records st mid entries) (g : Records mid st' more) :
    Records st st' (entries ++ more) := by
  unfold Records at h g ⊢
  rw [List.foldl_append, ← h, g]

theorem Extends.records (h : Extends st st') : Records st st' [] := by
  unfold Records
  rw [h.symbols]
  rfl

theorem records_of_declare {kind : Kind} {x : Unit}
    (h : declare pos name kind st = .ok (x, st')) : Records st st' [(name, kind)] := by
  obtain ⟨symbols, hsymbols, rfl⟩ := declare_symbols h
  exact Symbols.kinds_of_declare hsymbols

theorem parameters_records {params : List Param} {slots : List Slot}
    (h : parameters ctx params st = .ok (slots, st')) :
    ∃ entries, Records st st' entries ∧ entries.map (·.1) = params.map (·.name) := by
  induction params generalizing st slots with
  | nil =>
    obtain ⟨-, rfl⟩ := pure_eq_ok.1 h
    exact ⟨[], rfl, rfl⟩
  | cons p rest ih =>
    obtain ⟨-, mid, more, hd, hrest, -⟩ := parameters_cons_eq_ok h
    obtain ⟨entries, hentries, hnames⟩ := ih hrest
    refine ⟨_, (records_of_declare hd).append hentries, ?_⟩
    rw [List.map_append, hnames]
    rfl

theorem splice_symbols
    (h : splice ctx pos name st = .ok (code, st')) : st'.symbols = st.symbols := by
  obtain ⟨includer, unit, data, -, -, -, -, rfl⟩ := splice_states h
  rfl

theorem splice_records (h : splice ctx pos name st = .ok (code, st')) : Records st st' [] := by
  unfold Records
  rw [splice_symbols h]
  rfl

/-- What is recorded for a tree: the kinds of the names that it declares, under the names of functions
those of their results. -/
structure RecordsOf (st st' : State) (names : List Name) (functions : List Signature)
    (entries : List (Name × Kind)) : Prop where
  records : Records st st' entries
  names : entries.map (·.1) = names
  functions : ∀ s ∈ functions, (s.name, s.result) ∈ entries

theorem RecordsOf.append {names' : List Name} {functions' : List Signature}
    (h : RecordsOf st mid names functions entries) (g : RecordsOf mid st' names' functions' more) :
    RecordsOf st st' (names ++ names') (functions ++ functions') (entries ++ more) := by
  refine ⟨h.records.append g.records, ?_, ?_⟩
  · rw [List.map_append, h.names, g.names]
  · intro s hs
    rcases List.mem_append.1 hs with hs | hs
    · exact List.mem_append_left _ (h.functions s hs)
    · exact List.mem_append_right _ (g.functions s hs)

theorem RecordsOf.block (h : RecordsOf st.entered st' names functions entries) :
    RecordsOf st st'.left names functions entries := by
  refine ⟨?_, h.names, h.functions⟩
  have hrecords := h.records
  unfold Records at hrecords ⊢
  exact (Symbols.kinds_leave _).trans hrecords

theorem Extends.recordsOf (h : Extends st st') : RecordsOf st st' [] [] [] :=
  ⟨h.records, rfl, nofun⟩

theorem Lowers.records {ns : List Node} (h : Lowers ctx ns st st' code) :
    ∃ entries, RecordsOf st st' (Node.introducedAll ns) (Node.functionsAll ns) entries := by
  induction h with
  | cons _ _ ih ih' =>
    obtain ⟨entries, hfirst⟩ := ih
    obtain ⟨entries', hrest⟩ := ih'
    simp only [Node.introducedAll, Node.functionsAll, List.append_nil] at hfirst ⊢
    exact ⟨_, hfirst.append hrest⟩
  | @value _ n _ _ _ _ hvalue he =>
    have hnone : Node.introducedAll [n] = [] ∧ Node.functionsAll [n] = [] := by
      cases n with
      | binary _ op =>
        have hop := (expr_binary_eq_ok he).1
        cases op <;> first | exact ⟨rfl, rfl⟩ | cases hop
      | _ => first | exact ⟨rfl, rfl⟩ | cases hvalue
    rw [hnone.1, hnone.2]
    exact ⟨[], (expr_extends n he).recordsOf⟩
  | declare _ hd hr => exact ⟨_, (records_of_declare hd).append hr.extends_of.records, rfl, nofun⟩
  | assign _ _ hr | ret _ hr => exact ⟨[], hr.extends_of.recordsOf⟩
  | cond hc _ _ ih ih' =>
    obtain ⟨entries, hyes⟩ := ih
    obtain ⟨entries', hno⟩ := ih'
    simp only [Node.introducedAll, Node.introduced, Node.functionsAll, Node.functions,
      List.append_nil]
    exact ⟨_, (expr_extends _ hc).recordsOf.append (hyes.block.append hno.block)⟩
  | loop hc _ ih =>
    obtain ⟨entries, hbody⟩ := ih
    simp only [Node.introducedAll, Node.introduced, Node.functionsAll, Node.functions,
      List.append_nil]
    exact ⟨_, (expr_extends _ hc).recordsOf.append hbody.block⟩
  | @func _ _ name _ result _ _ _ _ _ last st' _ _ hslots _ _ _ hdeclare _ _ ih =>
    obtain ⟨params', hparams, hnames⟩ := parameters_records hslots
    obtain ⟨entries, hbody⟩ := ih
    have hname : Records last st' [(name, .orNumber result)] := by
      unfold Records
      rw [Symbols.kinds_of_declare hdeclare, Symbols.kinds_leave]
      rfl
    simp only [Node.introducedAll, Node.introduced, Node.functionsAll, Node.functions,
      List.append_nil]
    refine ⟨_, (hparams.append hbody.records).append hname, ?_, ?_⟩
    · rw [List.map_append, List.map_append, hnames, hbody.names]
      rfl
    · intro s hs
      rcases List.mem_append.1 hs with hs | hs
      · exact List.mem_append_left _ (List.mem_append_right _ (hbody.functions s hs))
      · cases List.mem_singleton.1 hs
        simp
  | splice h => exact ⟨[], splice_records h, rfl, nofun⟩
  | nil | leave | pass => exact ⟨[], (Extends.refl _).recordsOf⟩

theorem stmt_records {n : Node} (h : stmt ctx n st = .ok (code, st')) :
    ∃ entries, RecordsOf st st' n.introduced n.functions entries := by
  obtain ⟨entries, hentries⟩ := (lowers_of_stmt n h).records
  simp only [Node.introducedAll, Node.functionsAll, List.append_nil] at hentries
  exact ⟨entries, hentries⟩

def State.Agrees (st : State) (sigs : List Signature) : Prop :=
  ∀ s ∈ sigs, st.symbols.lookup? s.name = some s.result

theorem State.Agrees.of_kinds {sigs : List Signature} (h : st.Agrees sigs)
    (hkinds : st'.symbols.kinds = st.symbols.kinds) : st'.Agrees sigs := by
  intro s hs
  unfold Symbols.lookup?
  rw [hkinds]
  exact h s hs

/-- What is recorded for new names agrees with the functions of the tree, and with all that it agreed
with before. Their names are not declared again behind the tree. -/
theorem RecordsOf.behind {later : List Name} {known : List Signature}
    (h : RecordsOf st st' names functions entries) (hdistinct : (names ++ later).Nodup)
    (hfresh : ∀ s ∈ known, s.name ∉ names ++ later) (hknown : st.Agrees known) :
    st'.Agrees (known ++ functions) ∧ ∀ s ∈ known ++ functions, s.name ∉ later := by
  rw [← h.names] at hdistinct hfresh
  obtain ⟨hnodup, -, hdisjoint⟩ := List.nodup_append.1 hdistinct
  simp only [List.mem_append, not_or] at hfresh
  constructor
  · intro s hs
    unfold Symbols.lookup?
    rw [h.records, NameMap.get?_foldl_insert hnodup]
    rcases List.mem_append.1 hs with hs | hs
    · rw [NameMap.findEntry_eq_none (hfresh s hs).1]
      exact hknown s hs
    · rw [NameMap.findEntry_of_mem hnodup (h.functions s hs)]
      rfl
  · intro s hs
    rcases List.mem_append.1 hs with hs | hs
    · exact (hfresh s hs).2
    · have hname : s.name ∈ entries.map (·.1) := List.mem_map_of_mem (h.functions s hs)
      exact fun hlater => hdisjoint _ hname _ hlater rfl

end Lowering

end UnitScript
