import Dataflow.Proofs.Compiler.Operands

/-!
# Relaxing a compilation

A compilation that succeeds also succeeds with more storage and without checking element types, and
comes to the same end: the same function, variables, storage in use and counts
(`Compiler.compile_relaxed`).

The limit is only looked at to refuse an allocation.  Element types are determined whether or not
they are checked, and one that has passed the check is the one that is determined without it
(`Site.inputType_relaxed`).  So each step of a compilation that is taken is taken in the relaxed
compiler, too (`Relaxation.Bears`).
-/

namespace Dataflow

open Attempt

/-! ## Checks of element types -/

namespace Site

variable {site : Site} {index : ℕ} {strict strict' : Bool}

/-- Ranges whose types agree exist. -/
lemma forM_portOf_of_checkRangeTypes {first : ElementType} {ranges : List PortRange}
    (h : site.checkRangeTypes index first ranges = .ok ()) :
    ranges.forM (fun range => discard (site.portOf range)) = .ok () := by
  induction ranges with
  | nil => rfl
  | cons range rest ih =>
    obtain ⟨port, hport, hrest⟩ := Except.bind_eq_ok.mp h
    obtain ⟨-, hrest⟩ := (Except.guard_bind_eq_ok fun _ => malformed_ne_ok).mp hrest
    exact Except.bind_eq_ok.mpr ⟨(), by simp only [hport]; rfl, ih hrest⟩

/-- An element type that has passed the check is the one that is determined without it. -/
lemma inputType_relaxed (hstrict : strict' = true → strict = true) {elementType : ElementType}
    (h : site.inputType strict index = .ok elementType) :
    site.inputType strict' index = .ok elementType := by
  cases strict' with
  | true => rwa [hstrict rfl] at h
  | false =>
    cases strict with
    | false => exact h
    | true =>
      obtain ⟨ranges, hranges, h⟩ := Except.bind_eq_ok.mp h
      obtain ⟨port, hport, h⟩ := Except.bind_eq_ok.mp h
      obtain ⟨_, hcheck, h⟩ := Except.bind_eq_ok.mp h
      exact Except.bind_eq_ok.mpr ⟨ranges, hranges, Except.bind_eq_ok.mpr ⟨port, hport,
        Except.bind_eq_ok.mpr ⟨(), forM_portOf_of_checkRangeTypes hcheck, h⟩⟩⟩

lemma checkOperandTypes_relaxed (hstrict : strict' = true → strict = true)
    (h : site.checkOperandTypes strict = .ok ()) : site.checkOperandTypes strict' = .ok () := by
  obtain ⟨lhs, hlhs, h⟩ := Except.bind_eq_ok.mp h
  obtain ⟨rhs, hrhs, h⟩ := Except.bind_eq_ok.mp h
  refine Except.bind_eq_ok.mpr ⟨lhs, inputType_relaxed hstrict hlhs,
    Except.bind_eq_ok.mpr ⟨rhs, inputType_relaxed hstrict hrhs, ?_⟩⟩
  by_cases hdiffer : strict' = true ∧ lhs ≠ rhs
  · rw [if_pos ⟨hstrict hdiffer.1, hdiffer.2⟩] at h
    exact absurd h malformed_ne_ok
  · rw [if_neg hdiffer]
    rfl

end Site

/-! ## Relaxed compilers -/

/-- A limit for storage, and whether element types are checked. -/
structure Relaxation where
  /-- The number of elements that may be allocated. -/
  limit : ℕ
  /-- Whether operands of different element types are refused. -/
  checkElementTypes : Bool

namespace Relaxation

/-- The assembler with the other limit. -/
def assembler (relaxation : Relaxation) (a : Assembler) : Assembler :=
  { a with limit := relaxation.limit }

/-- The compiler with the other limit and the other option. -/
def compiler (relaxation : Relaxation) (c : Compiler Assembler) : Compiler Assembler :=
  { c with
    backend := relaxation.assembler c.backend
    options := { c.options with checkElementTypes := relaxation.checkElementTypes } }

/-- The other limit is not lower, and element types are not checked unless they were. -/
structure Relaxes (relaxation : Relaxation) (c : Compiler Assembler) : Prop where
  limit : c.backend.limit ≤ relaxation.limit
  checks : relaxation.checkElementTypes = true → c.options.checkElementTypes = true

/-- What the attempt does, it does in the relaxed compiler, too. -/
def Bears (relaxation : Relaxation) {α : Type} (x : Attempt (Compiler Assembler) α) : Prop :=
  ∀ ⦃c a d⦄, relaxation.Relaxes c → x c = .ok a d →
    x (relaxation.compiler c) = .ok a (relaxation.compiler d) ∧ relaxation.Relaxes d

variable {relaxation : Relaxation}

/-! ## Operations of the assembler -/

section

variable {a b : Assembler}

lemma allocate_declare {spec : VariableSpec} (hlimit : a.limit ≤ relaxation.limit)
    (h : (a.declare spec).allocate a.vars.next = .ok b) :
    ((relaxation.assembler a).declare spec).allocate a.vars.next = .ok (relaxation.assembler b) ∧
      b.limit = a.limit := by
  obtain ⟨var, hvar, hfree, hroom, rfl⟩ := Assembler.allocate_eq_ok.mp h
  exact ⟨Assembler.allocate_eq_ok.mpr ⟨var, hvar, hfree, hroom.trans hlimit, rfl⟩, rfl⟩

lemma beginFunction {name : String} {parameters : List Parameter}
    (h : a.beginFunction name parameters = .ok b) :
    (relaxation.assembler a).beginFunction name parameters = .ok (relaxation.assembler b) ∧
      b.limit = a.limit := by
  obtain ⟨hpending, hname, vars, hvars, rfl⟩ := Assembler.beginFunction_eq_ok.mp h
  exact ⟨Assembler.beginFunction_eq_ok.mpr ⟨hpending, hname, vars, hvars, rfl⟩, rfl⟩

lemma endFunction (h : a.endFunction = .ok b) :
    (relaxation.assembler a).endFunction = .ok (relaxation.assembler b) ∧ b.limit = a.limit := by
  obtain ⟨pending, hpending, rfl⟩ := Assembler.endFunction_eq_ok.mp h
  exact ⟨Assembler.endFunction_eq_ok.mpr ⟨pending, hpending, rfl⟩, rfl⟩

lemma openRegion {node : NodeId} (h : a.openRegion node = .ok b) :
    (relaxation.assembler a).openRegion node = .ok (relaxation.assembler b) ∧
      b.limit = a.limit := by
  obtain ⟨pending, table, hpending, htable, rfl⟩ := Assembler.openRegion_eq_ok.mp h
  exact ⟨Assembler.openRegion_eq_ok.mpr ⟨pending, table, hpending, htable, rfl⟩, rfl⟩

lemma emit {instruction : Instruction} (h : a.emit instruction = .ok b) :
    (relaxation.assembler a).emit instruction = .ok (relaxation.assembler b) ∧
      b.limit = a.limit := by
  obtain ⟨hcheck, pending, table, hpending, htable, rfl⟩ := Assembler.emit_eq_ok.mp h
  exact ⟨Assembler.emit_eq_ok.mpr ⟨hcheck, pending, table, hpending, htable, rfl⟩, rfl⟩

/-- Merges are granted or refused whatever the limit is. -/
lemma mergeRegion? (relaxation : Relaxation) (a : Assembler) (node : NodeId) :
    (relaxation.assembler a).mergeRegion? node =
      (a.mergeRegion? node).map relaxation.assembler := by
  ext next
  rw [Option.map_eq_some_iff, Assembler.mergeRegion?_eq_some]
  constructor
  · rintro ⟨pending, table, source, hpending, hsource, htable, rfl⟩
    exact ⟨_, Assembler.mergeRegion?_eq_some.mpr
      ⟨pending, table, source, hpending, hsource, htable, rfl⟩, rfl⟩
  · rintro ⟨_, hnext, rfl⟩
    obtain ⟨pending, table, source, hpending, hsource, htable, rfl⟩ :=
      Assembler.mergeRegion?_eq_some.mp hnext
    exact ⟨pending, table, source, hpending, hsource, htable, rfl⟩

lemma accept_mergeRegion (relaxation : Relaxation) (a : Assembler) (node : NodeId) :
    (relaxation.assembler a).accept ((relaxation.assembler a).mergeRegion? node) =
      ((a.accept (a.mergeRegion? node)).1,
        relaxation.assembler (a.accept (a.mergeRegion? node)).2) := by
  rw [mergeRegion?]
  cases a.mergeRegion? node <;> rfl

end

/-! ## Steps of the compiler -/

namespace Bears

variable {α γ : Type}

lemma pure (a : α) : Bears relaxation (Pure.pure a) := by
  intro c b d hc h
  obtain ⟨rfl, rfl⟩ := EStateM.Result.ok.inj h
  exact ⟨rfl, hc⟩

lemma ofExcept (x : Except CompileError α) : Bears relaxation (MonadExcept.ofExcept x) := by
  intro c a d hc h
  obtain ⟨rfl, rfl⟩ := ofExcept_eq_ok.mp h
  exact ⟨rfl, hc⟩

lemma bind {x : Attempt (Compiler Assembler) α} {f : α → Attempt (Compiler Assembler) γ}
    (hx : Bears relaxation x) (hf : ∀ a, Bears relaxation (f a)) :
    Bears relaxation (x >>= f) := by
  intro c b e hc h
  obtain ⟨a, d, hrun, hrest⟩ := bind_eq_ok.mp h
  obtain ⟨hrun', hd⟩ := hx hc hrun
  obtain ⟨hrest', he⟩ := hf a hd hrest
  exact ⟨bind_eq_ok.mpr ⟨a, _, hrun', hrest'⟩, he⟩

lemma onBehalfOf (name : String) {x : Attempt (Compiler Assembler) α} (hx : Bears relaxation x) :
    Bears relaxation (x.onBehalfOf name) := by
  intro c a d hc h
  obtain ⟨hrun, hd⟩ := hx hc (onBehalfOf_eq_ok.mp h)
  exact ⟨onBehalfOf_eq_ok.mpr hrun, hd⟩

/-- What is looked at is the same in the relaxed compiler. -/
lemma look {f : Compiler Unit → Attempt (Compiler Assembler) α}
    (hf : ∀ seen, Bears relaxation (f seen)) :
    Bears relaxation (get >>= fun compiler => f compiler.scene) := by
  intro c a d hc h
  exact hf c.scene hc h

/-- A check that is passed is passed if it is not made. -/
lemma checks {check : Bool → Except CompileError α}
    (hcheck : ∀ {strict strict' : Bool}, (strict' = true → strict = true) →
      ∀ {a}, check strict = .ok a → check strict' = .ok a) :
    Bears relaxation (do
      let strict := (← get).options.checkElementTypes
      MonadExcept.ofExcept (check strict)) := by
  intro c a d hc h
  obtain ⟨_, _, hget, h⟩ := bind_eq_ok.mp h
  obtain ⟨rfl, rfl⟩ := EStateM.Result.ok.inj hget
  obtain ⟨hpassed, rfl⟩ := ofExcept_eq_ok.mp h
  exact ⟨ofExcept_eq_ok.mpr ⟨hcheck hc.checks hpassed, rfl⟩, hc⟩

lemma modify {change : Compiler Assembler → Compiler Assembler}
    (hchange : ∀ c, change (relaxation.compiler c) = relaxation.compiler (change c))
    (hlimit : ∀ c, (change c).backend.limit = c.backend.limit)
    (hoptions : ∀ c, (change c).options = c.options) : Bears relaxation (modify change) := by
  intro c a d hc h
  obtain ⟨rfl, rfl⟩ := EStateM.Result.ok.inj h
  exact ⟨congrArg (EStateM.Result.ok ()) (hchange c), (hlimit c).trans_le hc.limit,
    fun hstrict => (congrArg Options.checkElementTypes (hoptions c)).trans (hc.checks hstrict)⟩

/-- A step that the relaxed assembler takes, too. -/
lemma onBackend {next : Assembler → Except BackendFault Assembler}
    (hnext : ∀ {a b}, next a = .ok b →
      next (relaxation.assembler a) = .ok (relaxation.assembler b) ∧ b.limit = a.limit) :
    Bears relaxation (Compiler.onBackend (.change next)) := by
  intro c a d hc h
  obtain ⟨backend, hbackend, rfl⟩ := Compiler.onBackend_change_eq_ok.mp h
  obtain ⟨hrun, hlimit⟩ := hnext hbackend
  exact ⟨Compiler.onBackend_change_eq_ok.mpr ⟨_, hrun, rfl⟩, hlimit.trans_le hc.limit, hc.checks⟩

lemma allocate (spec : VariableSpec) : Bears relaxation (Compiler.allocate spec) := by
  intro c var d hc h
  obtain ⟨backend, hnext, rfl, rfl⟩ := Compiler.allocate_eq_ok.mp h
  obtain ⟨hrun, hlimit⟩ := allocate_declare hc.limit hnext
  exact ⟨Compiler.allocate_eq_ok.mpr ⟨_, hrun, rfl, rfl⟩, hlimit.trans_le hc.limit, hc.checks⟩

lemma mergeStep (node : NodeId) (isFirst : Bool) :
    Bears relaxation (Compiler.mergeStep node isFirst) := by
  intro c a d hc h
  rw [Compiler.mergeStep_run] at h ⊢
  obtain ⟨-, rfl⟩ := EStateM.Result.ok.inj h
  have hafter : (relaxation.compiler c).afterMerge node =
      relaxation.compiler (c.afterMerge node) := by
    have hanswer := accept_mergeRegion relaxation c.backend node
    exact congrArg (fun answer : Bool × Assembler =>
      { relaxation.compiler c with
        backend := answer.2
        session := c.session.count fun stats => stats.mergeAttempted answer.1 }) hanswer
  obtain ⟨pending, hframe⟩ := c.backend.mergeRegion_frame node
  have hlimit : (c.afterMerge node).backend.limit = c.backend.limit := by
    show (c.backend.accept (c.backend.mergeRegion? node)).2.limit = _
    rw [hframe]
  have hoptions : (relaxation.compiler c).options.mergeRegions = c.options.mergeRegions := rfl
  rw [hoptions]
  split
  · exact ⟨congrArg (EStateM.Result.ok ()) hafter, hlimit.trans_le hc.limit, hc.checks⟩
  · exact ⟨rfl, hc⟩

/-- Compiling is made of such attempts. -/
lemma congruence (relaxation : Relaxation) : Compiler.Congruence id
    fun α _ x (_ : Attempt (Compiler Assembler) α) => Bears relaxation x where
  pure := pure
  ofExcept _ := ofExcept _
  bind := bind
  look := look
  elementType _ _ := checks Site.inputType_relaxed
  checkOperands _ := checks fun hstrict _ => Site.checkOperandTypes_relaxed hstrict
  allocate spec _ := allocate spec
  bindPort _ _ := modify (fun _ => rfl) (fun _ => rfl) fun _ => rfl
  emit _ := bind (modify (fun _ => rfl) (fun _ => rfl) fun _ => rfl) fun _ => onBackend emit
  onBehalfOf name _ _ := onBehalfOf name
  openRegion _ := onBackend openRegion
  regionCreated := modify (fun _ => rfl) (fun _ => rfl) fun _ => rfl
  finishNode _ := bind (modify (fun _ => rfl) (fun _ => rfl) fun _ => rfl) fun _ =>
    modify (fun _ => rfl) (fun _ => rfl) fun _ => rfl
  mergeStep := mergeStep
  notify _ _ := modify (fun _ => rfl) (fun _ => rfl) fun _ => rfl

end Bears
end Relaxation

/-! ## Compilations -/

/-- Negates two inputs at once. -/
def Model.negatedPair : Model :=
  ⟨"pair", #[⟨⟨0⟩, "a", .input, [], .real, 1⟩, ⟨⟨1⟩, "b", .input, [], .real, 1⟩,
    ⟨⟨2⟩, "n", .unary .neg, [⟨"input", ⟨[⟨⟨0⟩, 0, 1⟩, ⟨⟨1⟩, 0, 1⟩]⟩⟩], .real, 2⟩]⟩

namespace Compiler

variable {model : Model} {name : String} {c d : Compiler Assembler}

lemma compileOpen_bears (relaxation : Relaxation) (model : Model) (name : String) :
    relaxation.Bears (compileOpen model name) :=
  (Relaxation.Bears.congruence relaxation).compileOpen model <|
    (Relaxation.Bears.congruence relaxation).beginModel model name fun _ =>
      .onBackend Relaxation.beginFunction

/-- **Relaxing a compilation does not change what it does.**  If a compilation succeeds, it also
succeeds with a limit that is not lower and without checking element types, or with the check if it
was made before.  It returns the same function and leaves the same compiler, with the same program,
variables, storage in use, bindings and counts, but for the limit and the option themselves. -/
theorem compile_relaxed {relaxation : Relaxation} {function : CompiledFunction}
    (hlimit : c.backend.limit ≤ relaxation.limit)
    (hchecks : relaxation.checkElementTypes = true → c.options.checkElementTypes = true)
    (h : compile model name c = .ok function d) :
    compile model name (relaxation.compiler c) = .ok function (relaxation.compiler d) := by
  obtain ⟨parameters, opened, backend, hopen, hend, rfl, rfl⟩ := compile_eq_ok h
  have hrelaxes : relaxation.Relaxes (c.enter name) := ⟨hlimit, hchecks⟩
  obtain ⟨hopen', -⟩ := compileOpen_bears relaxation model name hrelaxes hopen
  have hend' : (relaxation.compiler opened).backend.endFunction =
    .ok (relaxation.assembler backend) := (Relaxation.endFunction hend).1
  have hcompile : compile model name (relaxation.compiler c) = _ :=
    compile_of_compileOpen hopen' hend'
  exact hcompile

/-- A gathering model is compiled with just enough storage, and with more and without checks. -/
theorem compile_relaxed_negatedPair : ∃ function d,
    compile Model.negatedPair "f" (fresh (Assembler.fresh "m" .always 6) .standard) =
        .ok function d ∧
      compile Model.negatedPair "f" (fresh (Assembler.fresh "m" .always 9) ⟨true, false, false⟩) =
        .ok function (Relaxation.compiler ⟨9, false⟩ d) := by
  have hcompile : (compile Model.negatedPair "f").succeeds
      (fresh (Assembler.fresh "m" .always 6) .standard) (fun _ _ => true) = true := by
    decide +kernel
  obtain ⟨function, d, h, -⟩ := Attempt.exists_of_succeeds hcompile
  have hrelaxed : compile Model.negatedPair "f" (Relaxation.compiler ⟨9, false⟩ _) =
      .ok function (Relaxation.compiler ⟨9, false⟩ d) :=
    compile_relaxed (by decide) (fun hchecks => nomatch hchecks) h
  exact ⟨function, d, h, hrelaxed⟩

end Compiler
end Dataflow
