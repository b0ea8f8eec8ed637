import KnittingPattern.Proofs.CommandStages

/-! # Runs of the command

The command does its stages in their order, as far as the first that fails.  Its exit code is that
of this failure, and the files are left as the stages before have left them.  Main theorem:
`Command.run_eq`. -/

namespace KnittingPattern.Command

open Stages CommandError

variable {σ : Type}

/-- The session of a pattern that is written as a tree on the way. -/
def throughTree (files : FileAccess (StateM σ)) (o : Options) :
    ExceptT CompileError (StateM σ) Session := do
  let b ← Compilation.readPattern files o.inputForm o.inputs
  if let some path := o.treeFile then Compilation.writeTree files b path
  Compilation.session b

/-- A session is written if there is a file for it. -/
def keep (files : FileAccess (StateM σ)) (o : Options) (s : Session) :
    ExceptT CompileError (StateM σ) Session :=
  match o.sessionFile with
  | some path => do
    Compilation.saveSession files (s.withFile path)
    return s.withFile path
  | none => return s

theorem compile_eq (files : FileAccess (StateM σ)) (o : Options) :
    compile files o =
    (match o.inputForm with
      | .session => Compilation.loadSession files (o.inputs.headD "")
      | _ => throughTree files o) >>= keep files o := by
  unfold compile throughTree
  cases o.inputForm <;> cases o.treeFile <;> simp only [bind_assoc] <;> rfl

/-- Where a session comes from does not count for what is written. -/
theorem coded_keep (files : FileAccess (StateM σ)) (o : Options) (w : σ)
    {s s' : Session} (h : ∀ path, s'.withFile path = s.withFile path) :
    (coded compileCode (keep files o s') w).1.map (fun _ => ()) =
        written files w o.sessionFile s.snapshot ∧
      (coded compileCode (keep files o s') w).2 = afterWrite files w o.sessionFile s.snapshot := by
  unfold keep
  cases o.sessionFile with
  | none => exact ⟨rfl, rfl⟩
  | some path =>
    simp only [h]
    rw [coded_bind, coded_saveSession]
    cases written files w (some path) s.snapshot <;> exact ⟨rfl, rfl⟩

theorem coded_compiling {α : Type} (x : ExceptT CompileError (StateM σ) α) (w : σ) :
    coded exitCode (compiling x) w = coded compileCode x w := by
  simp only [coded, compiling, ExceptT.run_mk, StateT.run_bind]
  generalize x.run.run w = answer
  obtain ⟨e | a, w'⟩ := answer <;> rfl

/-- What is done once the options are accepted. -/
def work (s : Surroundings (StateM σ)) (o : Options) : ExceptT CommandError (StateM σ) String :=
  match o.stage with
  | some stage => compiling (Compilation.dump s.files stage o.inputForm o.inputs)
  | none => do
    let session ← compiling (compile s.files o)
    unless o.noViewer do viewing s o session
    return ""

theorem coded_perform (s : Surroundings (StateM σ)) (o : Options) (w : σ) :
    coded exitCode (perform s o) w =
    match accepted o s.logLevel with
    | .ok _ => coded exitCode (work s o) w
    | .error c => (.error c, w) := by
  have hcheck : (Compilation.checkInputs o.inputForm o.inputs).mapError compileCode =
      orCode 2 (Compilation.checkInputs o.inputForm o.inputs).toOption := by
    unfold Compilation.checkInputs
    cases o.inputForm <;> dsimp only <;> split_ifs <;> rfl
  unfold perform accepted work
  dsimp only
  cases LogFilter.isValid (LogFilter.choose o.logLevel s.logLevel) with
  | false => rfl
  | true =>
    cases hchecked : Compilation.checkInputs o.inputForm o.inputs with
    | ok _ => rfl
    | error e =>
      rw [hchecked] at hcheck
      exact congrArg (fun c => (Except.error c, w)) (Except.error.inj hcheck)

section

variable {files : FileAccess (StateM σ)} {ready : σ → Prop} {File : Type} {file : String → File}
  {w : σ} {o : Options} (hfiles : files.Separates ready file) (hw : ready w)
  (hchecked : Compilation.checkInputs o.inputForm o.inputs = .ok ())

include hfiles hw hchecked

theorem coded_readPattern : coded compileCode
    (Compilation.readPattern files o.inputForm o.inputs) w = (pattern files w o, w) := by
  unfold Compilation.readPattern pattern
  rw [hchecked]
  cases o.inputForm with
  | texts =>
    refine coded_bind_same (coded_readTexts hfiles hw o.inputs) fun texts => ?_
    refine (coded_lift _).trans (congrArg (·, w) ?_)
    unfold parsed
    cases Pattern.ofSources texts with
    | ok b => rfl
    | error e =>
      cases e with
      | unexpected found literal position expected => cases found <;> rfl
      | _ => rfl
  | tree => exact coded_readTree hfiles hw _
  | session => rfl

theorem coded_throughTree : coded compileCode (throughTree files o) w =
    (do started (← tree files w o), afterTree files w o) := by
  unfold throughTree tree afterTree
  rw [coded_bind, coded_readPattern hfiles hw hchecked]
  cases pattern files w o with
  | error c => rfl
  | ok b =>
    have hstart (w : σ) : coded compileCode (liftM (Compilation.session b)) w = (started b, w) := by
      rw [coded_lift, mapError_session]
    cases o.treeFile with
    | none => exact hstart w
    | some path =>
      refine (coded_bind _ _).trans ?_
      rw [coded_writeTree]
      cases hwritten : written files w (some path) b.toJson.pretty with
      | error c => simp only [bind, Except.bind, hwritten]
      | ok _ =>
        simp only [bind, Except.bind, hwritten]
        exact hstart _

theorem coded_compile :
    (coded compileCode (compile files o) w).1.map (fun _ => ()) = discard (session files w o) ∧
      (coded compileCode (compile files o) w).2 = afterSession files w o := by
  have hmade : ∃ f : Session → Session, (∀ s path, (f s).withFile path = s.withFile path) ∧
      coded compileCode (match o.inputForm with
        | .session => Compilation.loadSession files (o.inputs.headD "")
        | _ => throughTree files o) w = ((made files w o).map f, afterTree files w o) := by
    have htree := coded_throughTree hfiles hw hchecked
    have hid (v : Except Nat Session) : v.map id = v := by cases v <;> rfl
    unfold made
    cases hform : o.inputForm with
    | session =>
      refine ⟨(Session.withFile · (o.inputs.headD "")), fun s path => rfl, ?_⟩
      simp only [coded_loadSession hfiles hw, afterTree, pattern, hform]
      rfl
    | _ => exact ⟨id, fun s path => rfl, by rw [hid]; exact htree⟩
  obtain ⟨f, hf, hmade⟩ := hmade
  unfold session afterSession
  rw [compile_eq, coded_bind, hmade]
  cases made files w o with
  | error c => exact ⟨rfl, rfl⟩
  | ok s =>
    obtain ⟨hwritten, hafter⟩ := coded_keep files o (afterTree files w o) (hf s)
    refine ⟨hwritten.trans ?_, hafter⟩
    cases hv : written files (afterTree files w o) o.sessionFile s.snapshot <;>
      simp only [bind, Except.bind, hv] <;> rfl

theorem coded_compilation : coded compileCode
      (Compilation.compile files o.inputForm o.inputs) w =
    (match o.inputForm with
      | .session => (restored files w o).map (Session.withFile · (o.inputs.headD ""))
      | _ => do started (← pattern files w o), w) := by
  have hpattern := coded_readPattern hfiles hw hchecked
  have hstarted : coded compileCode (do
      Compilation.session (← Compilation.readPattern files o.inputForm o.inputs)) w =
      (do started (← pattern files w o), w) :=
    coded_bind_same hpattern fun b => (coded_lift _).trans (by rw [mapError_session])
  unfold Compilation.compile
  rw [coded_bind, coded_lift, hchecked]
  cases hform : o.inputForm with
  | session => exact coded_loadSession hfiles hw _
  | _ => rw [hform] at hstarted; exact hstarted

/-- A stage that is shown is computed from what the files hold, and changes nothing. -/
theorem coded_dump (stage : Stage) : ∃ v : Except Nat String,
    coded compileCode (Compilation.dump files stage o.inputForm o.inputs) w = (v, w) ∧
      discard v = shown files w o stage := by
  have hpattern := coded_readPattern hfiles hw hchecked
  have hdiscard {α : Type} (v : Except Nat α) (f : α → String) :
      discard (v >>= fun a => .ok (f a)) = discard v := by
    cases v <;> rfl
  unfold Compilation.dump shown
  cases stage.accepts o.inputForm with
  | false => exact ⟨.error 2, rfl, rfl⟩
  | true =>
    cases stage with
    | tokens =>
      have hok : coded compileCode (liftM (Compilation.checkInputs o.inputForm o.inputs) :
          ExceptT CompileError (StateM σ) Unit) w = (.ok (), w) := by
        rw [coded_lift, hchecked]
        rfl
      exact ⟨_, coded_bind_same hok fun _ => coded_bind_same (coded_readTexts hfiles hw o.inputs)
        fun texts => coded_pure _, hdiscard _ _⟩
    | treeJson => exact ⟨_, coded_bind_same hpattern fun b => coded_pure _, hdiscard _ _⟩
    | treeYaml => exact ⟨_, coded_bind_same hpattern fun b => coded_pure _, hdiscard _ _⟩
    | records =>
      have hrecords (b : Block) : coded compileCode (liftM (Compilation.records b) :
          ExceptT CompileError (StateM σ) (List Record)) w = (laidOut b, w) := by
        rw [coded_lift, mapError_records]
      refine ⟨_, coded_bind_same hpattern fun b => coded_bind_same (hrecords b) fun rs =>
        coded_pure _, ?_⟩
      cases pattern files w o with
      | error c => rfl
      | ok b => exact hdiscard (laidOut b) _
    | states =>
      have hcompile := coded_compilation hfiles hw hchecked
      refine ⟨_, coded_bind_same hcompile fun s => coded_pure _, (hdiscard _ _).trans ?_⟩
      cases o.inputForm with
      | session => cases restored files w o <;> rfl
      | _ => rfl

theorem coded_work {s : Surroundings (StateM σ)} (hs : s.files = files)
    (hviewer : o.noViewer = true) :
    discard (coded exitCode (work s o) w).1 =
        (match o.stage with
        | some stage => shown files w o stage
        | none => discard (session files w o)) ∧
      (coded exitCode (work s o) w).2 =
        match o.stage with
        | some _ => w
        | none => afterSession files w o := by
  subst hs
  unfold work
  cases o.stage with
  | some stage =>
    obtain ⟨v, hv, hdiscard⟩ := coded_dump hfiles hw hchecked stage
    simp only [coded_compiling, hv, hdiscard, and_self]
  | none =>
    obtain ⟨hanswer, hafter⟩ := coded_compile hfiles hw hchecked
    simp only [hviewer, coded_bind, coded_compiling]
    rw [← hanswer, ← hafter]
    obtain ⟨v, w'⟩ := coded compileCode (compile s.files o) w
    cases v <;> exact ⟨rfl, rfl⟩

end

theorem exitCode_ne_zero (e : CommandError) : e.exitCode ≠ 0 := by
  have hsession (e : SessionError) : sessionCode e ≠ 0 := by
    cases e <;> exact Nat.succ_ne_zero _
  cases e with
  | compile e =>
    cases e with
    | session e => exact hsession e
    | badSyntax e =>
      cases e with
      | unexpected found literal position expected =>
        cases found <;> exact Nat.succ_ne_zero _
      | _ => exact Nat.succ_ne_zero _
    | _ => exact Nat.succ_ne_zero _
  | _ => exact Nat.succ_ne_zero _

theorem run_run {s : Surroundings (StateM σ)} {w : σ} {args : List String} {o : Options}
    (hargs : parse? args = some (.run o)) :
    ((run s args).run w).1.exitCode =
        (match (coded exitCode (perform s o) w).1 with
        | .ok _ => 0
        | .error code => code) ∧
      ((run s args).run w).2 = (coded exitCode (perform s o) w).2 ∧
      ∀ code, (coded exitCode (perform s o) w).1 = .error code → code ≠ 0 := by
  simp only [run, hargs, StateT.run_bind, coded]
  generalize (perform s o).run.run w = answer
  obtain ⟨e | output, w'⟩ := answer
  · refine ⟨rfl, rfl, fun code hcode => ?_⟩
    cases hcode
    exact exitCode_ne_zero e
  · exact ⟨rfl, rfl, fun code hcode => by cases hcode⟩

theorem checkInputs_of_accepted {o : Options} {logLevel : Option String}
    (h : accepted o logLevel = .ok ()) :
    Compilation.checkInputs o.inputForm o.inputs = .ok () := by
  unfold accepted at h
  cases hlevel : LogFilter.isValid (LogFilter.choose o.logLevel logLevel) with
  | false =>
    rw [hlevel] at h
    cases h
  | true =>
    rw [hlevel] at h
    cases hchecked : Compilation.checkInputs o.inputForm o.inputs with
    | error e =>
      rw [hchecked] at h
      cases h
    | ok _ => rfl

theorem coded_perform_eq {s : Surroundings (StateM σ)} {ready : σ → Prop} {File : Type}
    {file : String → File} (hfiles : s.files.Separates ready file) {w : σ} (hw : ready w)
    {o : Options} (hviewer : o.noViewer = true) :
    discard (coded exitCode (perform s o) w).1 = all s.files w o s.logLevel ∧
      (coded exitCode (perform s o) w).2 = afterAll s.files w o s.logLevel := by
  rw [coded_perform]
  unfold all afterAll
  cases haccepted : accepted o s.logLevel with
  | error c => exact ⟨rfl, rfl⟩
  | ok _ =>
    obtain ⟨hall, hafter⟩ :=
      coded_work hfiles hw (checkInputs_of_accepted haccepted) rfl hviewer
    refine ⟨hall, hafter.trans ?_⟩
    cases o.stage <;> rfl

/-- What the command returns and leaves, by its stages. -/
theorem run_eq {s : Surroundings (StateM σ)} {ready : σ → Prop} {File : Type}
    {file : String → File} (hfiles : s.files.Separates ready file) {w : σ} (hw : ready w)
    {args : List String} {o : Options} (hargs : parse? args = some (.run o))
    (hviewer : o.noViewer = true) :
    (∀ code, all s.files w o s.logLevel = .error code →
      ((run s args).run w).1.exitCode = code ∧ code ≠ 0) ∧
    (all s.files w o s.logLevel = .ok () → ((run s args).run w).1.exitCode = 0) ∧
    ((run s args).run w).2 = afterAll s.files w o s.logLevel := by
  obtain ⟨hexit, hstate, hcode⟩ := run_run (s := s) (w := w) hargs
  obtain ⟨hall, hafter⟩ := coded_perform_eq (o := o) hfiles hw hviewer
  rw [← hall]
  cases hv : (coded exitCode (perform s o) w).1 with
  | ok output =>
    rw [hv] at hexit
    exact ⟨fun code h => (by cases h), fun _ => hexit, hstate.trans hafter⟩
  | error c =>
    rw [hv] at hexit
    refine ⟨fun code h => ?_, fun h => (by cases h), hstate.trans hafter⟩
    cases h
    exact ⟨hexit, hcode c hv⟩

end KnittingPattern.Command
