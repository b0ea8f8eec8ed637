import KnittingPattern.Proofs.FilesWritten
import KnittingPattern.Proofs.SnapshotReading
import KnittingPattern.Session.Operation

/-! # Sessions that are restarted

A session that is saved and loaded from its file is the same session, because it is at one of its
states and its numbers have 64 bits.  So it does not matter when a session is restarted, and how
often.  Main theorem: `Session.play_eq_run`. -/

namespace KnittingPattern

namespace Session

/-- How sessions begin: at the first of some states, or from a snapshot. -/
inductive Begun : Session → Prop
  | ofStates (states : List State) : Begun (ofStates states)
  | ofSnapshot {text : String} {s : Session} (h : ofSnapshot? text = some s) : Begun s

/-- Along a run of operations all numbers in the states have 64 bits. -/
def statesFit (s : Session) : List Operation → Bool
  | [] => s.states.all State.fits
  | op :: ops => s.states.all State.fits && (s.operate op).2.statesFit ops

section

variable {m : Type → Type} [Monad m]

/-- Saves a session and loads it from its file. -/
def restart (files : FileAccess m) (s : Session) : m (Except SessionError Session) := do
  match ← s.save files with
  | .error e => return .error e
  | .ok _ => load files (s.file.getD "")

inductive Step where
  | operation (op : Operation)
  | restart

def Step.operations : List Step → List Operation :=
  List.filterMap fun
    | operation op => some op
    | restart => none

/-- Does steps in their order, as long as all restarts succeed. -/
def play (files : FileAccess m) (s : Session) :
    List Step → m (Except SessionError (List Answer × Session))
  | [] => return .ok ([], s)
  | .operation op :: steps => do
    let (answer, s) := s.operate op
    return (← play files s steps).map fun (answers, s) => (answer :: answers, s)
  | .restart :: steps => do
    match ← s.restart files with
    | .error e => return .error e
    | .ok s => play files s steps

end

variable {s : Session}

/-- An operation moves a session to one of its states, or changes the state it is at. -/
theorem operate_cases (s : Session) (op : Operation) :
    (∃ index, (s.operate op).2 = s.moveTo index ∧ (s.Placed → index < s.size ∨ index = 0)) ∨
      ∃ f, (s.operate op).2 = s.modifyCurrent f := by
  cases op with
  | next =>
    by_cases h : s.index + 1 < s.size
    · exact .inl ⟨s.index + 1, if_pos h, fun _ => .inl h⟩
    · exact .inl ⟨s.index, if_neg h, id⟩
  | previous => exact .inl ⟨s.index - 1, rfl, fun h => by unfold Placed at h; omega⟩
  | first => exact .inl ⟨0, rfl, fun _ => .inr rfl⟩
  | last => exact .inl ⟨s.size - 1, rfl, fun _ => by omega⟩
  | goto index =>
    by_cases h : index < s.size
    · exact .inl ⟨index, by rw [operate, goto, if_pos h]; rfl, fun _ => .inl h⟩
    · exact .inl ⟨s.index, by rw [operate, goto, if_neg h]; rfl, id⟩
  | moveLeft => exact .inr ⟨State.moveLeft, rfl⟩
  | moveRight => exact .inr ⟨State.moveRight, rfl⟩
  | count what how => exact .inr ⟨(·.count what how), rfl⟩

theorem file_operate (s : Session) (op : Operation) : (s.operate op).2.file = s.file := by
  obtain ⟨index, h, -⟩ | ⟨f, h⟩ := s.operate_cases op <;> rw [h] <;> rfl

theorem size_operate (s : Session) (op : Operation) : (s.operate op).2.size = s.size := by
  obtain ⟨index, h, -⟩ | ⟨f, h⟩ := s.operate_cases op
  · rw [h]; rfl
  · rw [h]; exact List.length_modify f s.states s.index

theorem Placed.operate (hs : s.Placed) (op : Operation) : (s.operate op).2.Placed := by
  obtain ⟨index, h, hindex⟩ | ⟨f, h⟩ := s.operate_cases op
  · rw [h]
    exact hindex hs
  · rw [Placed, size_operate, h]
    exact hs

theorem statesFit_start {ops : List Operation} (h : s.statesFit ops) : s.states.all State.fits := by
  cases ops with
  | nil => exact h
  | cons op ops => exact (Bool.and_eq_true_iff.mp h).1

theorem Placed.fits (hs : s.Placed) (hsize : s.size ≤ 2 ^ 64) (h : s.states.all State.fits) :
    s.fits := by
  have hindex : s.index < 2 ^ 64 := by
    unfold Placed at hs
    omega
  simp [Session.fits, hindex, h, -Nat.reducePow]

variable {σ : Type} {files : FileAccess (StateM σ)} {path : String} {ready : σ → Prop}

theorem run_save (hfiles : files.Keeps path ready) (hfile : s.file = some path) {w : σ}
    (hw : ready w) : ∃ w', (s.save files).run w = (.ok (), w') ∧ ready w' ∧
      (files.read path).run w' = (.ok s.snapshot, w') := by
  obtain ⟨w', hwrite, hready, hread⟩ := hfiles.write hw s.snapshot
  refine ⟨w', ?_, hready, hread⟩
  simp only [save, hfile, StateT.run_bind, hwrite]
  rfl

theorem run_load_eq (w : σ) : (load files path).run w =
    match (files.read path).run w with
    | (.error e, w') => (.error (.inaccessible path e), w')
    | (.ok text, w') =>
      (match ofSnapshot? text with
      | none => .error (.malformed path)
      | some s => .ok (s.withFile path), w') := by
  simp only [load, StateT.run_bind]
  generalize (files.read path).run w = answer
  obtain ⟨e | text, w'⟩ := answer
  · rfl
  · change StateT.run _ w' = _
    cases h : ofSnapshot? text <;> simp only [h] <;> rfl

theorem run_load {w w' : σ} {text : String} (hread : (files.read path).run w = (.ok text, w'))
    (h : ofSnapshot? text = some s) :
    (load files path).run w = (.ok (s.withFile path), w') := by
  simp only [run_load_eq, hread, h]

theorem exists_of_run_load {w w' : σ} (h : (load files path).run w = (.ok s, w')) :
    ∃ text read, ofSnapshot? text = some read ∧ s = read.withFile path := by
  rw [run_load_eq] at h
  split at h
  · cases h
  case h_2 text w'' _ =>
    cases hread : ofSnapshot? text with
    | none => simp only [hread] at h; cases h
    | some read =>
      simp only [hread] at h
      cases h
      exact ⟨text, read, hread, rfl⟩

theorem withFile_of_file (h : s.file = some path) :
    withFile ⟨s.states, s.index, none⟩ path = s := by
  rw [withFile, ← h]

/-- A restarted session is the same, and its file holds its snapshot. -/
theorem run_restart (hfiles : files.Keeps path ready) (hfile : s.file = some path) (hfits : s.fits)
    (hplaced : s.Placed) {w : σ} (hw : ready w) :
    ∃ w', (s.restart files).run w = (.ok s, w') ∧ ready w' ∧
      (files.read path).run w' = (.ok s.snapshot, w') := by
  obtain ⟨w', hsave, hready, hread⟩ := run_save hfiles hfile hw
  refine ⟨w', ?_, hready, hread⟩
  have hload := run_load hread (ofSnapshot?_snapshot hfits hplaced)
  rw [withFile_of_file hfile] at hload
  simp only [restart, StateT.run_bind, hsave, hfile]
  exact hload

/-- An operation keeps what a restart needs, and a restart gives back the session it was done to. -/
theorem run_play (hfiles : files.Keeps path ready) {steps : List Step} (hfile : s.file = some path)
    (hsize : s.size ≤ 2 ^ 64) (hplaced : s.Placed) (hfit : s.statesFit (Step.operations steps))
    {w : σ} (hw : ready w) :
    ∃ w', (s.play files steps).run w = (.ok (s.run (Step.operations steps)), w') ∧ ready w' := by
  induction steps generalizing s w with
  | nil => exact ⟨w, rfl, hw⟩
  | cons step steps ih =>
    cases step with
    | operation op =>
      have hrest := (Bool.and_eq_true_iff.mp hfit).2
      obtain ⟨w', hplay, hready⟩ := ih ((file_operate s op).trans hfile)
        ((size_operate s op).trans_le hsize) (hplaced.operate op) hrest hw
      refine ⟨w', ?_, hready⟩
      simp only [play, StateT.run_bind, hplay]
      rfl
    | restart =>
      have hfits := hplaced.fits hsize (statesFit_start hfit)
      obtain ⟨w', hrestart, hready, -⟩ := run_restart hfiles hfile hfits hplaced hw
      obtain ⟨w'', hplay, hready'⟩ := ih hfile hsize hplaced hfit hready
      refine ⟨w'', ?_, hready'⟩
      simp only [play, StateT.run_bind, hrestart]
      exact hplay

theorem Begun.placed (h : s.Begun) : s.Placed := by
  cases h with
  | ofStates states => exact .inr rfl
  | ofSnapshot h => exact (fits_of_ofSnapshot? h).2.1

/-- The file of a session keeps what is written to it.  Then, however often the session is restarted
between operations, the answers and the session at the end are those of the operations alone, if
there are no more states than an index can tell apart and their numbers stay within 64 bits.  A
session that has been loaded is the same after a restart, and is saved as the same text then. -/
theorem play_eq_run (hfiles : files.Keeps path ready) :
    (∀ {s : Session}, s.Begun → s.size ≤ 2 ^ 64 → ∀ steps : List Step,
      (s.withFile path).statesFit (Step.operations steps) → ∀ {w}, ready w →
      ∃ w', ((s.withFile path).play files steps).run w =
        (.ok ((s.withFile path).run (Step.operations steps)), w')) ∧
    ∀ {s : Session} {w w₁}, (load files path).run w = (.ok s, w₁) → ready w₁ →
      ∃ w₂ w₃, (s.restart files).run w₁ = (.ok s, w₂) ∧
        (files.read path).run w₂ = (.ok s.snapshot, w₂) ∧
        (s.save files).run w₂ = (.ok (), w₃) ∧
        (files.read path).run w₃ = (.ok s.snapshot, w₃) := by
  constructor
  · intro s hbegun hsize steps hfit w hw
    have hplaced : (s.withFile path).Placed := hbegun.placed
    obtain ⟨w', hplay, -⟩ := run_play hfiles (s := s.withFile path) rfl hsize hplaced hfit hw
    exact ⟨w', hplay⟩
  · intro s w w₁ hload hw
    obtain ⟨text, read, hread, rfl⟩ := exists_of_run_load hload
    obtain ⟨hfits, hplaced, -⟩ := fits_of_ofSnapshot? hread
    obtain ⟨w₂, hrestart, hready, htext⟩ :=
      run_restart hfiles (s := read.withFile path) rfl hfits hplaced hw
    obtain ⟨w₃, hsave, -, htext'⟩ := run_save hfiles (s := read.withFile path) rfl hready
    exact ⟨w₂, w₃, hrestart, htext, hsave, htext'⟩

/-- Two rows, of which the second one is next. -/
def twoRows : Session := ⟨[.ofRow .none ["k"] [], .ofRow .none ["p"] []], 1, none⟩

/-- A snapshot of the two rows, in arrays without names, with an index beyond them. -/
def twoRowsSnapshot : String :=
  "[[[[\"\",\"\",\"\"],null,null,[0,0,0],[\"k\"],[],\"k\"]," ++
    "[[\"\",\"\",\"\"],null,null,[0,0,0],[\"p\"],[],\"p\"]],9]"

def twoRowsSteps : List Step :=
  [.operation .next, .restart, .operation (.goto 2), .operation (.count .row .increment), .restart,
    .restart, .operation .previous]

theorem play_eq_run_twoRows :
    let t := FileTree.empty.put ["s.json", "work"] (.text twoRowsSnapshot)
    let s := twoRows.withFile "s.json"
    (∃ t', (s.play FileTree.access twoRowsSteps).run t =
      (.ok (s.run (Step.operations twoRowsSteps)), t')) ∧
    (load FileTree.access "s.json").run t = (.ok s, t) ∧
    ∃ t', (s.restart FileTree.access).run t = (.ok s, t') ∧ t'.read "s.json" = .ok s.snapshot := by
  intro t s
  have hfiles := FileTree.keeps "s.json"
  have hleads := FileTree.leads_empty
  have hready : ∃ place, t.Leads "s.json" place := ⟨_, hleads.put hleads.free twoRowsSnapshot⟩
  have hread : ofSnapshot? twoRowsSnapshot = some twoRows := by decide +kernel
  have hload : (load FileTree.access "s.json").run t = (.ok s, t) :=
    run_load (congrArg (·, t) hleads.read_put) hread
  obtain ⟨t', hplay⟩ :=
    (play_eq_run hfiles).1 (.ofSnapshot hread) (by decide) twoRowsSteps (by decide) hready
  obtain ⟨t₂, t₃, hrestart, htext, -, -⟩ := (play_eq_run hfiles).2 hload hready
  exact ⟨⟨t', hplay⟩, hload, t₂, hrestart, congrArg Prod.fst htext⟩

end Session
end KnittingPattern
