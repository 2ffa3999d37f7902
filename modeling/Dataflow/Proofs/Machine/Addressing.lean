import Dataflow.Proofs.Backend.History
import Dataflow.Proofs.Machine.Shape

/-!
# What accepted instructions address

An assembler takes an instruction only if every slice of it lies inside an allocated variable.  A
machine whose memory fits can therefore execute the instruction as long as these variables are kept
(`Assembler.emit_addresses`).  The memory of a machine does fit at first, and calls keep it so
unless a function has an input parameter of another size than its variable: the variable of a
parameter is found by its class and name alone, and storing an input then sets a row of the wrong
length (`Assembler.emit_resized`).
-/

namespace Dataflow
namespace Assembler

variable {a next : Assembler} {id : VarId} {var : Variable} {instruction : Instruction}
variable {slice : Slice}

/-! ## Variables that are kept -/

/-- A variable that has storage stays as it is while the table keeps it. -/
lemma get?_perform (h : a.vars.get? id = some var) (hallocated : var.allocated = true)
    (operation : Operation) (hkept : id.index < (a.perform operation).vars.size) :
    (a.perform operation).vars.get? id = some var := by
  revert hkept
  refine perform_cases (P := fun _ b => id.index < b.vars.size → b.vars.get? id = some var) a
    (fun _ _ => h) ?declare ?allocate (fun _ _ => h) ?endFunction (fun _ _ => h) ?discardFunction
    operation
  case declare =>
    intro spec _
    exact VariableTable.Prefix.get? ⟨_, (a.vars.toList_declare_variable spec).symm⟩ h
  case allocate =>
    intro other next hnext _
    obtain ⟨granted, hgranted, hfree, -, rfl⟩ := allocate_eq_ok.mp hnext
    have hne : id ≠ other := by
      rintro rfl
      obtain rfl : var = granted := Option.some.inj (h.symm.trans hgranted)
      cases hallocated.symm.trans hfree
    show (a.vars.setAllocated other true).get? id = some var
    rw [VariableTable.get?_setAllocated, if_neg hne, h]
  case endFunction =>
    intro next hnext _
    obtain ⟨pending, -, rfl⟩ := endFunction_eq_ok.mp hnext
    exact h
  case discardFunction =>
    intro hkept
    rw [vars_discardFunction, VariableTable.size_truncate] at hkept
    rw [vars_discardFunction]
    exact a.vars.get?_truncate_eq_some.mpr ⟨(lt_min_iff.mp hkept).1, h⟩

lemma get?_run (h : a.vars.get? id = some var) (hallocated : var.allocated = true)
    {later : List Operation} (hkept : ∀ done, done <+: later → id.index < (a.run done).vars.size) :
    (a.run later).vars.get? id = some var := by
  -- the table may shrink and grow again in between, so every part of the history counts
  induction later generalizing a with
  | nil => exact h
  | cons operation rest ih =>
    have hfirst : id.index < (a.perform operation).vars.size :=
      hkept [operation] (List.prefix_append [operation] rest)
    exact ih (get?_perform h hallocated operation hfirst) fun done hdone =>
      hkept (operation :: done) (List.cons_prefix_cons.mpr ⟨rfl, hdone⟩)

/-- Every operation keeps variables numbered by position. -/
lemma numbered_perform (h : ∀ id var, a.vars.get? id = some var → var.id = id)
    (operation : Operation) :
    ∀ id var, (a.perform operation).vars.get? id = some var → var.id = id := by
  refine perform_cases (P := fun _ b => ∀ id var, b.vars.get? id = some var → var.id = id) a
    (fun _ => h) ?declare ?allocate (fun _ => h) ?endFunction (fun _ => h) ?discardFunction
    operation
  case declare =>
    exact fun spec => VariableTable.numbered_concat h (a.vars.toList_declare_variable spec) rfl
  case allocate =>
    intro other next hnext id var hvar
    obtain ⟨granted, -, -, -, rfl⟩ := allocate_eq_ok.mp hnext
    have hget : (a.vars.setAllocated other true).get? id = some var := hvar
    rw [VariableTable.get?_setAllocated] at hget
    split at hget
    · obtain ⟨old, hold, rfl⟩ := Option.map_eq_some_iff.mp hget
      exact h id old hold
    · exact h id var hget
  case endFunction =>
    intro next hnext
    obtain ⟨pending, -, rfl⟩ := endFunction_eq_ok.mp hnext
    exact h
  case discardFunction =>
    intro id var hvar
    rw [vars_discardFunction] at hvar
    exact h id var (a.vars.get?_truncate_eq_some.mp hvar).2

lemma numbered_run (h : ∀ id var, a.vars.get? id = some var → var.id = id)
    (history : List Operation) :
    ∀ id var, (a.run history).vars.get? id = some var → var.id = id :=
  run_invariant (J := fun b => ∀ id var, b.vars.get? id = some var → var.id = id)
    (fun _ operation h => numbered_perform h operation) h history

/-! ## Accepted instructions -/

/-- All slices of an accepted instruction have been checked. -/
lemma inside_of_emit (h : a.emit instruction = .ok next) (hslice : slice ∈ instruction.slices) :
    ∃ written, slice.Inside next.vars written := by
  have hadmissible := checkInstruction_eq_ok.mp (emit_eq_ok.mp h).1
  obtain ⟨pending, rfl⟩ := emit_frame h
  rcases List.mem_cons.mp hslice with rfl | hsource
  · exact ⟨true, hadmissible.dst⟩
  · exact ⟨false, hadmissible.sources slice hsource⟩

/-- **What an accepted instruction addresses.**  Whatever has happened to an assembler, if it takes
an instruction, then every slice of it names an allocated variable, is not empty and lies inside the
variable.  However the assembler goes on, as long as it does not drop these variables, a machine
whose memory fits executes the instruction, and its memory still fits afterwards.  Whatever calls a
machine has served, its memory does fit if the input parameters of the functions have the sizes of
their variables (`Program.Measured`). -/
theorem emit_addresses (program : String) (policy : MergePolicy) (limit : ℕ)
    (history : List Operation)
    (h : ((fresh program policy limit).run history).emit instruction = .ok next) :
    (∀ slice ∈ instruction.slices, ∃ var, next.vars.get? slice.var = some var ∧
      var.allocated = true ∧ 1 ≤ slice.length ∧ slice.offset + slice.length ≤ var.size) ∧
    ∀ later : List Operation, (∀ done, done <+: later → ∀ slice ∈ instruction.slices,
        slice.var.index < (next.run done).vars.size) →
      (∀ memory : Memory, memory.Fits (next.run later).vars →
        ∃ memory', instruction.execute (next.run later).vars memory = .ok memory' ∧
          memory'.Fits (next.run later).vars) ∧
      ((next.run later).program.Measured → ∀ requests : List (String × List (List Float)),
        (transcript Machine.serve (Machine.start (next.run later).program) requests).2.memory.Fits
          (next.run later).vars) := by
  refine ⟨fun slice hslice => ?_, fun later hlater => ⟨fun memory hfits => ?_,
    fun hmeasured requests => hmeasured.transcript_fits ?_ requests⟩⟩
  · obtain ⟨written, var, hvar, hallocated, -, hlength, hstop, -⟩ := inside_of_emit h hslice
    exact ⟨var, hvar, hallocated, Nat.one_le_iff_ne_zero.mpr hlength, hstop⟩
  · have hwithin : ∀ slice ∈ instruction.slices,
        slice.Within (next.run later).vars ∧ slice.stop ≤ Word.top := by
      intro slice hslice
      obtain ⟨written, var, hvar, hallocated, hword, hlength, hstop, -⟩ := inside_of_emit h hslice
      have hkept : (next.run later).vars.get? slice.var = some var :=
        get?_run hvar hallocated fun done hdone => hlater done hdone slice hslice
      exact ⟨⟨var, hkept, hlength, hstop⟩, hword⟩
    obtain ⟨memory', hexecute, hfits', -⟩ := Instruction.execute_within hwithin hfits
    exact ⟨memory', hexecute, hfits'⟩
  · have hnumbered : ∀ id var, next.vars.get? id = some var → var.id = id := by
      have hbefore := numbered_run (a := fresh program policy limit)
        (fun _ _ hvar => (nomatch hvar)) history
      obtain ⟨pending, rfl⟩ := emit_frame h
      exact hbefore
    exact numbered_run hnumbered later

/-- A variable of four elements gets its storage, and the region of a node of `f` is opened. -/
def fourElements : List Operation :=
  [.declare ⟨none, .global, .real, 4, .zero⟩, .allocate ⟨0⟩, .beginFunction "f" [], .openRegion ⟨0⟩]

/-- The whole variable can be filled, also after the function is finished. -/
theorem emit_addresses_whole :
    let instruction : Instruction := .fill ⟨⟨0⟩, 0, 4⟩ 1
    ∃ next, ((fresh "m" .always 8).run fourElements).emit instruction = .ok next ∧
      ∃ memory', instruction.execute (next.run [.endFunction]).vars
        (Machine.start (next.run [.endFunction]).program).memory = .ok memory' := by
  intro instruction
  have haccepted : (((fresh "m" .always 8).run fourElements).emit instruction).toOption.any
      (fun next => next.vars.size == 1 && (next.run [.endFunction]).vars.size == 1) = true := by
    decide +kernel
  cases h : ((fresh "m" .always 8).run fourElements).emit instruction with
  | error fault =>
    rw [h] at haccepted
    cases haccepted
  | ok next =>
    rw [h] at haccepted
    obtain ⟨hsize, hended⟩ := (Bool.and_eq_true_iff.mp haccepted).imp eq_of_beq eq_of_beq
    have hkept : ∀ done, done <+: [.endFunction] → ∀ slice ∈ instruction.slices,
        slice.var.index < (next.run done).vars.size := by
      rintro done ⟨rest, hdone⟩
      refine List.forall_mem_singleton.mpr ?_
      rcases done with _ | ⟨first, done⟩
      · exact hsize ▸ Nat.one_pos
      · obtain ⟨rfl, hrest⟩ := List.cons.inj hdone
        obtain ⟨rfl, -⟩ := List.append_eq_nil_iff.mp hrest
        exact hended ▸ Nat.one_pos
    obtain ⟨-, hlater⟩ := emit_addresses "m" .always 8 fourElements h
    obtain ⟨hexecute, -⟩ := hlater [.endFunction] hkept
    obtain ⟨memory', hok, -⟩ := hexecute _ (Program.initialMemory_fits _)
    exact ⟨next, rfl, memory', hok⟩

/-- An input variable of four elements and another variable of that size get their storage.  The
parameter of `f` has the name of the first one, but only two elements. -/
def twoOfFour : List Operation :=
  [.declare ⟨some "x", .input, .real, 4, .zero⟩, .declare ⟨none, .global, .real, 4, .zero⟩,
    .allocate ⟨0⟩, .allocate ⟨1⟩, .beginFunction "f" [⟨"x", .input, .real, 2⟩], .openRegion ⟨0⟩]

/-- An instruction that copies the four elements is accepted, but a call that stores the two
elements of its input makes a machine refuse it. -/
theorem emit_resized :
    let slice : Slice := ⟨⟨0⟩, 0, 4⟩
    ∃ next, ((fresh "m" .always 8).run twoOfFour).emit (.copy ⟨⟨1⟩, 0, 4⟩ slice) = .ok next ∧
      ((Machine.start (next.run [.endFunction]).program).serve ("f", [[1, 2]])).1 =
        .error (.invalidSlice slice) := by
  intro slice
  have haccepted : (((fresh "m" .always 8).run twoOfFour).emit
      (.copy ⟨⟨1⟩, 0, 4⟩ slice)).toOption.any (fun next =>
        decide (((Machine.start (next.run [.endFunction]).program).serve ("f", [[1, 2]])).1 =
          .error (.invalidSlice slice))) = true := by
    decide +kernel
  cases h : ((fresh "m" .always 8).run twoOfFour).emit (.copy ⟨⟨1⟩, 0, 4⟩ slice) with
  | error fault =>
    rw [h] at haccepted
    cases haccepted
  | ok next =>
    rw [h] at haccepted
    exact ⟨next, rfl, of_decide_eq_true haccepted⟩

end Assembler
end Dataflow
