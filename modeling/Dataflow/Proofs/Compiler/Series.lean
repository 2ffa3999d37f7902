import Dataflow.Proofs.Compiler.Soundness
import Dataflow.Proofs.Correctness
import Dataflow.Proofs.Failure
import Dataflow.Proofs.Machine.Isolation

/-!
# Compilations one after another

A compilation that succeeds adds one function, which works safely on variables that are added with
it, and a compilation that fails adds nothing.  So after any series of compilations the functions of
the program have names and variables of their own (`exists_steady`).  It follows that no call fails
for the sake of a slice (`programs_are_sound`) and that calls of different functions do not
interfere (`calls_are_isolated`).
-/

namespace Dataflow
namespace Compiler

/-- The compiler that has served some requests one after another. -/
def reached (start : Compiler Assembler) (requests : List (Model × String)) : Compiler Assembler :=
  (transcript serve start requests).2

/-- A function that was added by one of the requests, and the span of the variables that were added
with it. -/
def Originates (start : Compiler Assembler) (requests : List (Model × String))
    (function : Function) (span : ℕ × ℕ) : Prop :=
  ∃ before request rest, requests = before ++ request :: rest ∧ request.2 = function.name ∧
    (reached start (before ++ [request])).backend.program.functions =
      (reached start before).backend.program.functions ++ [function] ∧
    span = ((reached start before).backend.vars.size,
      (reached start (before ++ [request])).backend.vars.size)

/-- A compiler between compilations: everything is committed and has its storage, and the functions
of the program keep to the variables that were added with them. -/
structure Steady (start : Compiler Assembler) (requests : List (Model × String))
    (spans : String → ℕ × ℕ) : Prop where
  settled : (reached start requests).backend.Settled
  tidy : (reached start requests).backend.Tidy
  stocked : (reached start requests).backend.Stocked
  limit : (reached start requests).backend.limit = start.backend.limit
  modular : (reached start requests).backend.program.Modular spans
  origin : ∀ function ∈ (reached start requests).backend.program.functions,
    Originates start requests function (spans function.name)

variable {start : Compiler Assembler} {requests : List (Model × String)}
variable {request : Model × String} {spans : String → ℕ × ℕ} {function : Function}

lemma reached_concat (start : Compiler Assembler) (requests : List (Model × String))
    (request : Model × String) :
    reached start (requests ++ [request]) = (serve (reached start requests) request).2 :=
  transcript_concat start requests request

lemma Originates.concat {span : ℕ × ℕ} (h : Originates start requests function span)
    (request : Model × String) : Originates start (requests ++ [request]) function span := by
  obtain ⟨before, own, rest, rfl, hrest⟩ := h
  exact ⟨before, own, rest ++ [request], by simp, hrest⟩

/-- A new function has a name that no other has. -/
lemma Written.name_ne {model : Model} {name : String} {c d : Compiler Assembler}
    (h : Written model name c function d) :
    ∀ other ∈ c.backend.program.functions, other.name ≠ name := by
  have hnew := h.new
  rw [Program.function?, List.find?_eq_none] at hnew
  exact fun other hother => by simpa using hnew other hother

namespace Steady

/-- One more function behind the others. -/
lemma modular_concat (h : Steady start requests spans) (hmodel : request.1.WellFormed)
    (hlimit : start.backend.limit < Word.count) {next : Compiler Assembler}
    (hfunctions : next.backend.program.functions =
      (reached start requests).backend.program.functions ++ [function])
    (hwritten : Written request.1 request.2 (reached start requests) function next) :
    next.backend.program.Modular (Function.update spans request.2
      ((reached start requests).backend.vars.size, next.backend.vars.size)) := by
  have hsettled : (reached start requests).backend.uncommitted = [] := by
    rw [Assembler.uncommitted, h.settled.committed]
    exact List.drop_eq_nil_of_le (VariableTable.length_toList _).le
  have hsound := hwritten.sound hmodel.numbered hsettled
  have hstocked := hwritten.stocked h.stocked
  have hnew := hwritten.name_ne
  have hall : ∀ other ∈ next.backend.program.functions,
      other ∈ (reached start requests).backend.program.functions ∨ other = function := by
    rw [hfunctions]
    exact fun other hother => by simpa using hother
  have hsize := hwritten.table.size_le
  refine ⟨⟨hwritten.layout.tidy.numbered, fun id var hvar => ?_⟩, ?_, fun other hother => ?_,
    fun other hother => ?_, fun other hother third hthird hne => ?_⟩
  · exact (hstocked.size_le hvar).trans_lt ((hwritten.limit.trans h.limit).trans_lt hlimit)
  · rw [hfunctions, List.map_append, List.map_singleton, hwritten.named]
    refine List.nodup_append.mpr ⟨h.modular.distinct, List.nodup_singleton _, ?_⟩
    rintro _ hold _ hname rfl
    obtain ⟨other, hother, heq⟩ := List.mem_map.mp hold
    exact hnew other hother (heq.trans (List.mem_singleton.mp hname))
  · rcases hall other hother with hold | rfl
    · rw [Function.update_of_ne (hnew other hold)]
      exact (h.modular.sound other hold).mono hwritten.table
    · rw [hwritten.named, Function.update_self]
      exact hsound
  · rcases hall other hother with hold | rfl
    · rw [Function.update_of_ne (hnew other hold)]
      exact (h.modular.bounded other hold).trans hsize
    · rw [hwritten.named, Function.update_self]
      exact le_refl _
  · rcases hall other hother with hold | rfl <;> rcases hall third hthird with hold' | rfl
    · rw [Function.update_of_ne (hnew other hold), Function.update_of_ne (hnew third hold')]
      exact h.modular.apart other hold third hold' hne
    · rw [Function.update_of_ne (hnew other hold), hwritten.named, Function.update_self]
      exact .inl (h.modular.bounded other hold)
    · rw [Function.update_of_ne (hnew third hold'), hwritten.named, Function.update_self]
      exact .inr (h.modular.bounded third hold')
    · exact absurd rfl hne

/-- **One more compilation.** -/
lemma concat (h : Steady start requests spans) (hmodel : request.1.WellFormed)
    (hlimit : start.backend.limit < Word.count) :
    ∃ spans', Steady start (requests ++ [request]) spans' := by
  have hnext := reached_concat start requests request
  have hsettled := serve_settled h.settled request
  cases hrun : compile request.1 request.2 (reached start requests) with
  | error e last =>
    have hfailed : (serve (reached start requests) request).1.isOk = false := by
      rw [serve, Attempt.outcome, hrun]
      rfl
    obtain ⟨hbackend, -⟩ := serve_failed h.settled hfailed
    rw [← hnext] at hbackend
    exact ⟨spans, hnext ▸ hsettled, hbackend ▸ h.tidy, hbackend ▸ h.stocked, hbackend ▸ h.limit,
      hbackend ▸ h.modular, fun function hmem =>
        (h.origin function (hbackend ▸ hmem)).concat request⟩
  | ok answer last =>
    have hlast : reached start (requests ++ [request]) = last := by
      rw [hnext, serve, Attempt.after, hrun]
    obtain ⟨function, hfunctions, hwritten, -⟩ := compile_ok_written hmodel h.tidy
      (by rw [h.settled.committed]) hrun
    have hmodular := h.modular_concat hmodel hlimit hfunctions hwritten
    refine ⟨_, hnext ▸ hsettled, ?_, ?_, ?_, hlast ▸ hmodular, fun other hmem => ?_⟩
    · exact hlast ▸ hwritten.layout.tidy
    · exact hlast ▸ hwritten.stocked h.stocked
    · exact hlast ▸ hwritten.limit.trans h.limit
    · rw [hlast, hfunctions] at hmem
      rcases List.mem_append.mp hmem with hold | hnew
      · rw [Function.update_of_ne (hwritten.name_ne other hold)]
        exact (h.origin other hold).concat request
      · obtain rfl := List.mem_singleton.mp hnew
        rw [hwritten.named, Function.update_self]
        exact ⟨requests, request, [], rfl, hwritten.named.symm, hlast ▸ hfunctions, by rw [hlast]⟩

/-- Before the first compilation there is nothing. -/
lemma nil (program : String) (policy : MergePolicy) (limit : ℕ) (options : Options) :
    Steady (fresh (Assembler.fresh program policy limit) options) [] fun _ => (0, 0) where
  settled := settled_fresh program policy limit
  tidy := .fresh program policy limit
  stocked := .fresh program policy limit
  limit := rfl
  modular :=
    { numbered := fun _ _ h => (nomatch h)
      sized := fun _ _ h => (nomatch h)
      distinct := List.nodup_nil
      sound := fun _ h => (nomatch h)
      bounded := fun _ h => (nomatch h)
      apart := fun _ h => (nomatch h) }
  origin := fun _ h => (nomatch h)

end Steady

/-- The state of a compiler after any series of compilations. -/
lemma exists_steady {program : String} {policy : MergePolicy} {limit : ℕ}
    (hlimit : limit < Word.count) {options : Options} {requests : List (Model × String)}
    (hmodels : ∀ request ∈ requests, request.1.WellFormed) :
    ∃ spans, Steady (fresh (Assembler.fresh program policy limit) options) requests spans := by
  induction requests using List.reverseRecOn with
  | nil => exact ⟨_, .nil program policy limit options⟩
  | append_singleton requests request ih =>
    obtain ⟨hrequests, hrequest⟩ := List.forall_mem_append.mp hmodels
    obtain ⟨spans, h⟩ := ih hrequests
    exact h.concat (hrequest request List.mem_cons_self) hlimit

variable {program : String} {policy : MergePolicy} {limit : ℕ} {options : Options}

/-- **Compiled programs are sound and run safely.**  After any series of compilations, successful or
not, all variables have their storage, which is counted and within the limit, and the functions have
distinct names.  Every function works safely on variables that were added by the request that it
comes from.  So no call fails for the sake of a slice, whatever has been called before, and every
call with inputs of the right lengths answers with outputs of the declared lengths. -/
theorem programs_are_sound (hlimit : limit < Word.count)
    (hmodels : ∀ request ∈ requests, request.1.WellFormed) :
    let start := fresh (Assembler.fresh program policy limit) options
    let last := (reached start requests).backend
    ((∀ var ∈ last.vars.toList, var.allocated = true) ∧
      last.used = (last.vars.toList.map Variable.size).sum ∧ last.used ≤ limit) ∧
    (last.program.functions.map Function.name).Nodup ∧
    (∀ function ∈ last.program.functions, ∃ low high,
      Originates start requests function (low, high) ∧ function.Sound last.vars low high) ∧
    ∀ calls : List (String × List (List Float)),
      let machine := (transcript Machine.serve (Machine.start last.program) calls).2
      (∀ call e, (machine.serve call).1 = .error e → ¬ e.BlamesSlice) ∧
      ∀ function ∈ last.program.functions, ∀ inputs : List (List Float),
        inputs.map List.length = function.inputs.map (fun binding => binding.1.size) →
        ∃ outputs, (machine.serve (function.name, inputs)).1 = .ok outputs ∧
          outputs.map List.length = function.outputs.map fun binding => binding.1.size := by
  obtain ⟨spans, h⟩ : ∃ spans,
      Steady (fresh (Assembler.fresh program policy limit) options) requests spans :=
    exists_steady hlimit hmodels
  refine ⟨⟨fun var hvar => ?_, h.stocked.used, h.stocked.limit.trans h.limit.le⟩,
    h.modular.distinct, fun function hmem => ⟨_, _, h.origin function hmem,
      h.modular.sound function hmem⟩, fun calls => ?_⟩
  · obtain ⟨i, hi⟩ := List.getElem?_of_mem hvar
    exact h.stocked.allocated ⟨i⟩ var ((VariableTable.get?_eq ..).trans hi)
  · obtain ⟨memory, hmemory, hfits⟩ :=
      h.modular.transcript_fits (Program.initialMemory_fits _) calls
    rw [Machine.start, hmemory]
    refine ⟨fun call e => ?_, fun function hmem inputs hinputs =>
      h.modular.serve_ok hfits hmem hinputs⟩
    obtain ⟨answer, next, hserve, hslice, -⟩ := h.modular.serve_outcome hfits call
    rw [hserve]
    exact hslice e

/-- Two running sums.  The second request fails, as there is a function of that name already. -/
def twoSums : List (Model × String) :=
  [(.runningSum, "f"), (.runningSum, "f"), (.runningSum, "g")]

theorem programs_are_sound_twoSums :
    10 < Word.count ∧ (∀ request ∈ twoSums, request.1.WellFormed) ∧
      let last := (reached (fresh (Assembler.fresh "m" .always 10) .standard) twoSums).backend
      last.used = 6 ∧ last.program.functions.map Function.name = ["f", "g"] ∧
      (∀ function ∈ last.program.functions, ∃ low high,
        function.Sound last.vars low high) ∧
      ∃ outputs, ((transcript Machine.serve (Machine.start last.program)
        [("f", [[1]]), ("f", [])]).2.serve ("g", [[5]])).1 = .ok outputs := by
  have hlimit : 10 < Word.count := by decide
  have hmodels : ∀ request ∈ twoSums, request.1.WellFormed := by decide +kernel
  obtain ⟨-, -, hsound, hcalls⟩ :=
    @programs_are_sound twoSums "m" .always 10 .standard hlimit hmodels
  refine ⟨hlimit, hmodels, by decide +kernel, by decide +kernel, fun function hmem => ?_, ?_⟩
  · obtain ⟨low, high, -, h⟩ := hsound function hmem
    exact ⟨low, high, h⟩
  · obtain ⟨-, hanswers⟩ := hcalls [("f", [[1]]), ("f", [])]
    have hfunction : ∃ function ∈ (reached (fresh (Assembler.fresh "m" .always 10) .standard)
        twoSums).backend.program.functions, function.name = "g" ∧
          [[(5 : Float)]].map List.length = function.inputs.map fun binding => binding.1.size := by
      decide +kernel
    obtain ⟨function, hmem, hname, hinputs⟩ := hfunction
    obtain ⟨outputs, hanswer, -⟩ := hanswers function hmem _ hinputs
    exact ⟨outputs, hname ▸ hanswer⟩

/-- **Calls do not interfere.**  Whatever functions of a compiled program are called one after
another, with success or without, the successful calls of a function have the answers that they have
if they are the only ones, and they leave the same contents in the variables of the function that
last from call to call. -/
theorem calls_are_isolated (hlimit : limit < Word.count)
    (hmodels : ∀ request ∈ requests, request.1.WellFormed) :
    let program := (reached (fresh (Assembler.fresh program policy limit) options)
      requests).backend.program
    ∀ (calls : List (String × List (List Float))), ∀ function ∈ program.functions,
      let run := transcript Machine.serve (Machine.start program) calls
      let own := successfulCalls function.name calls run.1
      let alone := transcript Machine.serve (Machine.start program) (own.map Prod.fst)
      alone.1 = own.map Prod.snd ∧
        ∀ instruction ∈ function.body, ∀ slice ∈ instruction.slices,
          program.vars.Lasting slice.var →
          alone.2.memory.get? slice.var = run.2.memory.get? slice.var := by
  obtain ⟨spans, h⟩ : ∃ spans,
      Steady (fresh (Assembler.fresh program policy limit) options) requests spans :=
    exists_steady hlimit hmodels
  intro program calls function hmem
  have hfits := program.initialMemory_fits
  obtain ⟨hanswers, hlast⟩ :=
    h.modular.transcript_alone hmem hfits hfits (fun _ _ => rfl) calls
  refine ⟨hanswers, fun instruction hinstruction slice hslice hlasting => hlast _ ⟨hlasting, ?_⟩⟩
  exact (h.modular.sound function hmem).own instruction hinstruction slice hslice

theorem calls_are_isolated_twoSums :
    10 < Word.count ∧ (∀ request ∈ twoSums, request.1.WellFormed) ∧
      let program :=
        (reached (fresh (Assembler.fresh "m" .always 10) .standard) twoSums).backend.program
      let calls := [("f", [[1]]), ("g", [[5]]), ("f", [[1, 2]]), ("h", []), ("f", [[2]])]
      let own := successfulCalls "f" calls
        (transcript Machine.serve (Machine.start program) calls).1
      own.map Prod.snd = [.ok [[1]], .ok [[3]]] ∧
        (transcript Machine.serve (Machine.start program) (own.map Prod.fst)).1 =
          own.map Prod.snd := by
  have hlimit : 10 < Word.count := by decide
  have hmodels : ∀ request ∈ twoSums, request.1.WellFormed := by decide +kernel
  have hfunction : ∃ function ∈ (reached (fresh (Assembler.fresh "m" .always 10) .standard)
      twoSums).backend.program.functions, function.name = "f" := by
    decide +kernel
  obtain ⟨function, hmem, hname⟩ := hfunction
  refine ⟨hlimit, hmodels, by decide +kernel, ?_⟩
  rw [← hname]
  exact (calls_are_isolated hlimit hmodels _ function hmem).1

end Compiler
end Dataflow
