import KnittingPattern.Command
import KnittingPattern.Proofs.FilesApart
import KnittingPattern.Proofs.SessionRestarts

/-! # Stages of the command

A command without viewer goes through stages: it checks the options, reads a pattern or a session,
writes the tree, lays the pattern out and writes the session.  Here each stage is a function of what
the files hold at the start, and has the exit code of its failure.  Main definitions: `Stages.all`,
`Stages.afterAll`, and `coded`, what a computation comes to apart from the texts of its errors. -/

namespace KnittingPattern.Command

namespace Stages

/-- An answer of a stage, which fails with a code. -/
def orCode {α : Type} (code : Nat) : Option α → Except Nat α
  | some a => .ok a
  | none => .error code

/-- The log level exists, and the inputs are as many as their form takes. -/
def accepted (o : Options) (logLevel : Option String) : Except Nat Unit := do
  unless LogFilter.isValid (LogFilter.choose o.logLevel logLevel) do throw 2
  orCode 2 (Compilation.checkInputs o.inputForm o.inputs).toOption

/-- The tree of some texts; a character that no token has is a failure of its own. -/
def parsed (texts : List String) : Except Nat Block :=
  match Pattern.ofSources texts with
  | .ok b => .ok b
  | .error (.unexpected .illegal _ _ _) => .error 4
  | .error _ => .error 5

def laidOut (b : Block) : Except Nat (List Record) := orCode 6 b.records.toOption

def expanded (rs : List Record) : Except Nat (List State) := orCode 6 (State.ofRecords rs).toOption

/-- A pattern at the start of its states. -/
def started (b : Block) : Except Nat Session := do return .ofStates (← expanded (← laidOut b))

variable {σ : Type} (files : FileAccess (StateM σ)) (w : σ) (o : Options)

def texts : Except Nat (List String) := orCode 3 (o.inputs.mapM (files.text? w))

def text : Except Nat String := orCode 3 (files.text? w (o.inputs.headD ""))

/-- The pattern of the inputs; a session holds none. -/
def pattern : Except Nat Block :=
  match o.inputForm with
  | .texts => do parsed (← texts files w o)
  | .tree => do orCode 5 (Pattern.ofJson? (← text files w o))
  | .session => .error 2

def restored : Except Nat Session := do orCode 1 (Session.ofSnapshot? (← text files w o))

/-- A text is written to a file if there is one to write to. -/
def written (path : Option String) (text : String) : Except Nat Unit :=
  match path with
  | some path => orCode 3 ((files.write path text).run w).1.toOption
  | none => .ok ()

/-- The state that a write leaves. -/
def afterWrite (path : Option String) (text : String) : σ :=
  match path with
  | some path => ((files.write path text).run w).2
  | none => w

/-- The pattern, once it is written as a tree. -/
def tree : Except Nat Block := do
  let b ← pattern files w o
  written files w o.treeFile b.toJson.pretty
  return b

/-- The state after the tree is written. -/
def afterTree : σ :=
  match pattern files w o with
  | .ok b => afterWrite files w o.treeFile b.toJson.pretty
  | .error _ => w

/-- The session of the inputs. -/
def made : Except Nat Session :=
  match o.inputForm with
  | .session => restored files w o
  | _ => do started (← tree files w o)

/-- The session, once it is written. -/
def session : Except Nat Session := do
  let s ← made files w o
  written files (afterTree files w o) o.sessionFile s.snapshot
  return s

/-- The state after the session is written. -/
def afterSession : σ :=
  match made files w o with
  | .ok s => afterWrite files (afterTree files w o) o.sessionFile s.snapshot
  | .error _ => afterTree files w o

/-- What a stage that is shown depends on. -/
def shown (stage : Stage) : Except Nat Unit := do
  unless stage.accepts o.inputForm do throw 2
  match stage with
  | .tokens => discard (texts files w o)
  | .treeJson | .treeYaml => discard (pattern files w o)
  | .records => discard (do laidOut (← pattern files w o))
  | .states =>
    match o.inputForm with
    | .session => discard (restored files w o)
    | _ => discard (do started (← pattern files w o))

/-- All that the command does. -/
def all (logLevel : Option String) : Except Nat Unit := do
  accepted o logLevel
  match o.stage with
  | some stage => shown files w o stage
  | none => discard (session files w o)

/-- The state after all that the command does. -/
def afterAll (logLevel : Option String) : σ :=
  match accepted o logLevel, o.stage with
  | .ok _, none => afterSession files w o
  | _, _ => w

end Stages

section

variable {ε α β σ : Type} {code : ε → Nat} {w w' : σ}

/-- What a computation that may fail comes to: its answer, or the code of its error, and the state
it leaves. -/
def coded (code : ε → Nat) (x : ExceptT ε (StateM σ) α) (w : σ) : Except Nat α × σ :=
  ((x.run.run w).1.mapError code, (x.run.run w).2)

theorem coded_pure (a : α) : coded code (pure a) w = (.ok a, w) := rfl

theorem coded_lift (x : Except ε α) : coded code (liftM x : ExceptT ε (StateM σ) α) w =
    (x.mapError code, w) := by
  cases x <;> rfl

theorem coded_bind (x : ExceptT ε (StateM σ) α) (f : α → ExceptT ε (StateM σ) β) :
    coded code (x >>= f) w =
      match coded code x w with
      | (.ok a, w') => coded code (f a) w'
      | (.error c, w') => (.error c, w') := by
  simp only [coded, ExceptT.run_bind, StateT.run_bind]
  generalize x.run.run w = answer
  obtain ⟨e | a, w'⟩ := answer <;> rfl

/-- A computation that changes nothing goes on with one that changes nothing. -/
theorem coded_bind_same {x : ExceptT ε (StateM σ) α} {v : Except Nat α}
    (h : coded code x w = (v, w)) {f : α → ExceptT ε (StateM σ) β} {g : α → Except Nat β}
    (hf : ∀ a, coded code (f a) w = (g a, w)) : coded code (x >>= f) w = (v >>= g, w) := by
  rw [coded_bind, h]
  cases v with
  | ok a => exact hf a
  | error c => rfl

end

namespace Stages

theorem orCode_bind {α β : Type} (code : Nat) (a : Option α) (f : α → Option β) :
    orCode code (a.bind f) = (orCode code a >>= fun a => orCode code (f a)) := by
  cases a <;> rfl

theorem mapError_eq_orCode {ε α : Type} {code : ε → Nat} {n : Nat} (h : ∀ e, code e = n)
    (x : Except ε α) : x.mapError code = orCode n x.toOption := by
  cases x with
  | ok a => rfl
  | error e => exact congrArg Except.error (h e)

end Stages

open Stages CommandError

section

variable {σ : Type} {files : FileAccess (StateM σ)} {w : σ}

/-- An access to a file fails with code three. -/
theorem coded_access {α : Type} (x : StateM σ (Except FileError α)) {e : FileError → CompileError}
    (he : ∀ cause, compileCode (e cause) = 3) :
    coded compileCode (ExceptT.mk do return (← x).mapError e) w =
      (orCode 3 (x.run w).1.toOption, (x.run w).2) := by
  rw [← mapError_eq_orCode he]
  simp only [coded, ExceptT.run_mk, StateT.run_bind]
  generalize x.run w = answer
  obtain ⟨e | a, w'⟩ := answer <;> rfl

theorem coded_writeTree (b : Block) (path : String) :
    coded compileCode (Compilation.writeTree files b path) w =
      (written files w (some path) b.toJson.pretty,
        afterWrite files w (some path) b.toJson.pretty) :=
  coded_access _ fun _ => rfl

theorem coded_saveSession (s : Session) (path : String) :
    coded compileCode (Compilation.saveSession files (s.withFile path)) w =
      (written files w (some path) s.snapshot, afterWrite files w (some path) s.snapshot) := by
  refine Eq.trans ?_ (coded_access (files.write path s.snapshot)
    (e := fun cause => .session (.inaccessible path cause)) fun _ => rfl)
  simp only [coded, Compilation.saveSession, Session.save, Session.withFile, ExceptT.run_mk,
    StateT.run_bind]
  rw [show (Session.snapshot ⟨s.states, s.index, some path⟩) = s.snapshot from rfl]
  generalize (files.write path s.snapshot).run w = answer
  obtain ⟨e | a, w'⟩ := answer <;> rfl

theorem mapError_session (b : Block) :
    (Compilation.session b).mapError compileCode = started b := by
  unfold Compilation.session Compilation.states Compilation.records started laidOut expanded
  cases b.records with
  | error e => rfl
  | ok rs =>
    change Except.mapError compileCode (Except.map Session.ofStates
      (Except.mapError CompileError.unbalanced (State.ofRecords rs))) =
      (orCode 6 (State.ofRecords rs).toOption).map Session.ofStates
    cases State.ofRecords rs <;> rfl

theorem mapError_records (b : Block) :
    (Compilation.records b).mapError compileCode = laidOut b := by
  unfold Compilation.records laidOut
  cases b.records <;> rfl

variable {ready : σ → Prop} {File : Type} {file : String → File}
  (hfiles : files.Separates ready file) (hw : ready w)

include hfiles hw

theorem coded_read (path : String) {e : FileError → CompileError}
    (he : ∀ cause, compileCode (e cause) = 3) :
    coded compileCode (ExceptT.mk do return (← files.read path).mapError e) w =
      (orCode 3 (files.text? w path), w) := by
  rw [coded_access _ he, hfiles.run_read hw]
  rfl

theorem coded_readTexts (inputs : List String) :
    coded compileCode (Compilation.readTexts files inputs) w =
      (orCode 3 (inputs.mapM (files.text? w)), w) := by
  induction inputs with
  | nil => rfl
  | cons path paths ih =>
    rw [Compilation.readTexts, List.mapM_cons, Option.bind_eq_bind, orCode_bind]
    refine coded_bind_same (coded_read hfiles hw path fun _ => rfl) fun text => ?_
    rw [Option.bind_eq_bind, orCode_bind]
    exact coded_bind_same ih fun texts => rfl

theorem coded_readTree (path : String) : coded compileCode (Compilation.readTree files path) w =
    (do orCode 5 (Pattern.ofJson? (← orCode 3 (files.text? w path))), w) := by
  refine coded_bind_same (coded_read hfiles hw path fun _ => rfl) fun text => ?_
  cases Pattern.ofJson? text <;> rfl

theorem coded_loadSession (path : String) :
    coded compileCode (Compilation.loadSession files path) w =
      ((do orCode 1 (Session.ofSnapshot? (← orCode 3 (files.text? w path)))).map
        (Session.withFile · path), w) := by
  have hread : (files.read path).run w = (((files.read path).run w).1, w) :=
    Prod.ext rfl (hfiles.run_read hw path)
  simp only [coded, Compilation.loadSession, ExceptT.run_mk, StateT.run_bind, Session.run_load_eq,
    FileAccess.text?]
  rw [hread]
  generalize ((files.read path).run w).1 = answer
  cases answer with
  | error e => rfl
  | ok text =>
    change _ = ((orCode 1 (Session.ofSnapshot? text)).map (Session.withFile · path), w)
    cases h : Session.ofSnapshot? text <;> simp only [h] <;> rfl

end

end KnittingPattern.Command
