import UnitScript.Module.Imports
import UnitScript.Proofs.Code.Limits
import UnitScript.Proofs.Lowering.Exports
import UnitScript.Syntax.Parser

/-!
# Compiled units read back

Compiled code is well-formed whatever the program is, and the kinds of the exports are those of the
written types, of which only callbacks have results. So a compiled unit that can be written is read
back unless it is too large for the fields of the binary form, or exports a callback that returns a
callback: such a kind has a text that is not read.
-/

namespace UnitScript

namespace Kind

theorem isNamed_ofTypeExpr (t : TypeExpr) : (ofTypeExpr t).IsNamed := by
  induction t with
  | named pos name =>
    refine ⟨?_, trivial⟩
    simp only [ofTypeExpr]
    cases hparse : Tag.parse? name with
    | none => trivial
    | some tag => exact Tag.isNamed_of_parse? hparse
  | callback pos => exact ⟨trivial, trivial⟩
  | callbackOf pos result ih => exact ⟨trivial, ih.tag⟩

theorem plain_ofTypeExpr (t : TypeExpr) : (ofTypeExpr t).Plain := by
  cases t with
  | named pos name => exact fun _ => rfl
  | callback pos => exact fun h => absurd rfl h
  | callbackOf pos result => exact fun h => absurd rfl h

theorem orNumber_plain_isNamed (t : Option TypeExpr) :
    (orNumber t).Plain ∧ (orNumber t).IsNamed := by
  unfold orNumber
  split
  · exact ⟨fun _ => rfl, trivial, trivial⟩
  · cases t with
    | none => exact ⟨fun _ => rfl, trivial, trivial⟩
    | some t => exact ⟨plain_ofTypeExpr t, isNamed_ofTypeExpr t⟩

end Kind

namespace Lowering

open Instruction

variable {ctx : Context} {st st' : State} {code : Code}

theorem formed_function (record : FunctionRecord) : (Instruction.function record).Formed :=
  ⟨rfl, rfl, by simp [Instruction.function], by simp [Instruction.function]⟩

theorem formed_declarations (s : Scratch) : Throughout Formed s.declarations :=
  (lowered_declarations s).shaped.imp fun _ => Shaped.formed

theorem Lowers.formed {ns : List Node} (h : Lowers ctx ns st st' code)
    (himp : ctx.ImportsHave Formed (Node.importsOfAll ns)) : Throughout Formed code :=
  h.throughout (fun _ h _ => h.formed) (fun _ record => formed_function record) himp

end Lowering

namespace CodeUnit

variable {o : CompileOptions} {body : List Node} {u : CodeUnit}

theorem plainExports_of_compile (h : compile o (.program body) = .ok u) : u.PlainExports := by
  rw [PlainExports, exports_of_compile h]
  intro e he
  obtain ⟨result, hkind⟩ := Node.outerFunctionsOfAll_kind body e (NameMap.mem_of_mem_ofList he)
  rw [hkind]
  exact Kind.orNumber_plain_isNamed result

theorem formed_of_compile (himports : Node.importsOfAll body = [])
    (h : compile o (.program body) = .ok u) :
    Instruction.Throughout Instruction.Formed u.code := by
  obtain ⟨ctx, -, -, -, -, st, hs, -, -⟩ := compile_eq_ok h
  refine (Lowering.lowers_of_stmts body hs).formed fun includer _ name hname => ?_
  rw [himports] at hname
  cases hname

/-- A compiled unit that can be written reads back as it is just if it is within the limits of the
binary form and exports no callback that returns a callback. -/
theorem compiled_reads_back_iff {w : Bytes} (himports : Node.importsOfAll body = [])
    (hcompile : compile o (.program body) = .ok u) (hencode : u.encode = .ok w) :
    decode w = .ok u ↔
      u.WithinLimits ∧ ∀ e ∈ u.exports.entries, e.2 ≠ ⟨.callback, .callback⟩ :=
  decode_encode_iff (formed_of_compile himports hcompile) (plainExports_of_compile hcompile) hencode

def nestedCallbackSource : Bytes :=
  Bytes.ofString "func f(): func<func<number>> \x7b return 0; \x7d"

/-- A function whose result is written as a callback that returns a callback. -/
def nestedCallback : List Node :=
  [.func ⟨1, 6⟩ (Bytes.ofString "f") []
    (some (.callbackOf ⟨1, 11⟩ (.callbackOf ⟨1, 16⟩ (.named ⟨1, 21⟩ (Bytes.ofString "number")))))
    [.ret ⟨1, 32⟩ (.number ⟨1, 39⟩ 0)]]

def nestedCallbackBody : List Instruction := ({} : Scratch).declarations ++ [.ret [.imm 0]]

def nestedCallbackUnit : CodeUnit where
  name := defaultName
  exports := NameMap.empty.insert (Bytes.ofString "f") ⟨.callback, .callback⟩
  code := [.function ⟨Bytes.ofString "f", [], .ptr,
    (Encoding.code nestedCallbackBody).toOption.getD []⟩]

set_option maxRecDepth 20000 in
/-- The program is compiled and its unit is written, and what was written is not read back. -/
theorem nestedCallback_not_read_back :
    Program.ofSource nestedCallbackSource = (nestedCallback, []) ∧
      Node.importsOfAll nestedCallback = [] ∧
      compile {} (.program nestedCallback) = .ok nestedCallbackUnit ∧
      ∃ w, nestedCallbackUnit.encode = .ok w ∧ decode w ≠ .ok nestedCallbackUnit := by
  have hsource : Program.ofSource nestedCallbackSource = (nestedCallback, []) := rfl
  have hcompile : compile {} (.program nestedCallback) = .ok nestedCallbackUnit := rfl
  have hencode : ∃ w, nestedCallbackUnit.encode = .ok w := ⟨_, rfl⟩
  obtain ⟨w, hw⟩ := hencode
  refine ⟨hsource, rfl, hcompile, w, hw, fun hread => ?_⟩
  have hcallback := ((compiled_reads_back_iff rfl hcompile hw).1 hread).2
  exact hcallback (Bytes.ofString "f", ⟨.callback, .callback⟩) (by decide) rfl

end CodeUnit

end UnitScript
