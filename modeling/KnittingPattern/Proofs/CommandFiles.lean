import KnittingPattern.Proofs.CommandRuns
import KnittingPattern.Proofs.StateNumbers

/-! # Files of the command

What the files of the outputs hold behind the stages that write them, and what is loaded from the
file of the session.  A write that succeeds leaves what is written, and no stage changes any other
file.  In a tree of files a write that fails changes nothing. -/

namespace KnittingPattern.Command

open Stages CommandError

section

variable {σ : Type} {files : FileAccess (StateM σ)} {w : σ} {o : Options}

/-- An answer that another one has to follow is there if both are. -/
theorem bind_and_return_eq_ok_iff {α : Type} {x : Except Nat α} {f : α → Except Nat Unit} {a : α} :
    (do let a ← x; f a; return a) = Except.ok a ↔ x = .ok a ∧ f a = .ok () := by
  cases x with
  | error c => simp [bind, Except.bind]
  | ok b =>
    constructor
    · intro h
      cases hf : f b with
      | error c => simp [bind, Except.bind, hf] at h
      | ok _ =>
        obtain rfl : b = a := by simpa [bind, Except.bind, pure, Except.pure, hf] using h
        exact ⟨rfl, hf⟩
    · rintro ⟨⟨⟩, hf⟩
      simp [bind, Except.bind, pure, Except.pure, hf]

theorem tree_eq_ok_iff {b : Block} : Stages.tree files w o = .ok b ↔
    pattern files w o = .ok b ∧ written files w o.treeFile b.toJson.pretty = .ok () :=
  bind_and_return_eq_ok_iff

theorem session_eq_ok_iff {s : Session} : Stages.session files w o = .ok s ↔
    made files w o = .ok s ∧
      written files (afterTree files w o) o.sessionFile s.snapshot = .ok () :=
  bind_and_return_eq_ok_iff

theorem afterTree_of_error {c : Nat} (h : pattern files w o = .error c) :
    afterTree files w o = w := by
  simp only [afterTree, h]

theorem afterTree_of_ok {b : Block} (h : pattern files w o = .ok b) :
    afterTree files w o = afterWrite files w o.treeFile b.toJson.pretty := by
  simp only [afterTree, h]

theorem afterSession_of_error {c : Nat} (h : made files w o = .error c) :
    afterSession files w o = afterTree files w o := by
  simp only [afterSession, h]

theorem afterSession_of_ok {s : Session} (h : made files w o = .ok s) : afterSession files w o =
    afterWrite files (afterTree files w o) o.sessionFile s.snapshot := by
  simp only [afterSession, h]

end

section

variable {σ : Type} {files : FileAccess (StateM σ)} {ready : σ → Prop} {File : Type}
  {file : String → File} {w : σ} {o : Options} (hfiles : files.Separates ready file) (hw : ready w)

include hfiles hw

theorem ready_afterWrite (path : Option String) (text : String) :
    ready (afterWrite files w path text) := by
  cases path with
  | none => exact hw
  | some path => exact hfiles.ready_write hw path text

theorem text?_afterWrite {path : Option String} {p : String} (hp : p ∈ path) {text : String}
    (h : written files w path text = .ok ()) :
    files.text? (afterWrite files w path text) p = some text := by
  obtain rfl := Option.mem_def.mp hp
  cases hrun : (files.write p text).run w with
  | mk answer w' =>
    simp only [written, hrun] at h
    cases answer with
    | error e => cases h
    | ok _ =>
      simp only [afterWrite, hrun]
      exact hfiles.written hw hrun

theorem text?_afterWrite_of_apart {path : Option String} {other : String}
    (h : ∀ p ∈ path, file other ≠ file p) (text : String) :
    files.text? (afterWrite files w path text) other = files.text? w other := by
  cases path with
  | none => rfl
  | some path => exact hfiles.apart hw (h path rfl) text

theorem ready_afterTree : ready (afterTree files w o) := by
  cases h : pattern files w o with
  | error c => rwa [afterTree_of_error h]
  | ok b => exact afterTree_of_ok h ▸ ready_afterWrite hfiles hw _ _

theorem text?_afterTree_of_apart {other : String} (h : ∀ a ∈ o.treeFile, file other ≠ file a) :
    files.text? (afterTree files w o) other = files.text? w other := by
  cases hb : pattern files w o with
  | error c => rw [afterTree_of_error hb]
  | ok b => rw [afterTree_of_ok hb, text?_afterWrite_of_apart hfiles hw h]

theorem text?_afterTree {a : String} (ha : a ∈ o.treeFile) {b : Block}
    (h : Stages.tree files w o = .ok b) :
    files.text? (afterTree files w o) a = some b.toJson.pretty := by
  obtain ⟨hb, hwritten⟩ := tree_eq_ok_iff.mp h
  rw [afterTree_of_ok hb, text?_afterWrite hfiles hw ha hwritten]

theorem ready_afterSession : ready (afterSession files w o) := by
  have htree := ready_afterTree (o := o) hfiles hw
  cases h : made files w o with
  | error c => rwa [afterSession_of_error h]
  | ok s => exact afterSession_of_ok h ▸ ready_afterWrite hfiles htree _ _

theorem text?_afterSession_of_apart {other : String}
    (h : ∀ p ∈ o.sessionFile, file other ≠ file p) :
    files.text? (afterSession files w o) other = files.text? (afterTree files w o) other := by
  cases hs : made files w o with
  | error c => rw [afterSession_of_error hs]
  | ok s =>
    rw [afterSession_of_ok hs, text?_afterWrite_of_apart hfiles (ready_afterTree hfiles hw) h]

theorem text?_afterSession {p : String} (hp : p ∈ o.sessionFile) {s : Session}
    (h : Stages.session files w o = .ok s) :
    files.text? (afterSession files w o) p = some s.snapshot := by
  obtain ⟨hs, hwritten⟩ := session_eq_ok_iff.mp h
  rw [afterSession_of_ok hs, text?_afterWrite hfiles (ready_afterTree hfiles hw) hp hwritten]

end

section

variable {t : FileTree} {o : Options} {c : Nat}

theorem afterWrite_of_error {path : Option String} {text : String}
    (h : written FileTree.access t path text = .error c) :
    afterWrite FileTree.access t path text = t := by
  cases path with
  | none => rfl
  | some p =>
    cases hrun : (FileTree.access.write p text).run t with
    | mk answer t' =>
      simp only [written, hrun] at h
      simp only [afterWrite, hrun]
      cases answer with
      | error e => exact FileTree.run_access_write_of_error hrun
      | ok _ => cases h

theorem afterTree_of_tree_error (h : Stages.tree FileTree.access t o = .error c) :
    afterTree FileTree.access t o = t := by
  cases hb : pattern FileTree.access t o with
  | error c => exact afterTree_of_error hb
  | ok b =>
    rw [afterTree_of_ok hb]
    cases hwritten : written FileTree.access t o.treeFile b.toJson.pretty with
    | error c => exact afterWrite_of_error hwritten
    | ok _ => cases h.symm.trans (tree_eq_ok_iff.mpr ⟨hb, hwritten⟩)

theorem afterSession_of_session_error (h : Stages.session FileTree.access t o = .error c) :
    afterSession FileTree.access t o = afterTree FileTree.access t o := by
  cases hs : made FileTree.access t o with
  | error c => exact afterSession_of_error hs
  | ok s =>
    rw [afterSession_of_ok hs]
    cases hwritten :
        written FileTree.access (afterTree FileTree.access t o) o.sessionFile s.snapshot with
    | error c => exact afterWrite_of_error hwritten
    | ok _ => cases h.symm.trans (session_eq_ok_iff.mpr ⟨hs, hwritten⟩)

end

section

variable {σ : Type} {files : FileAccess (StateM σ)} {w : σ} {o : Options} {logLevel : Option String}

theorem exists_states_of_started {b : Block} {s : Session} (h : started b = .ok s) :
    ∃ ss, Compilation.states b = .ok ss ∧ s = .ofStates ss := by
  rw [← mapError_session, Compilation.session] at h
  cases hss : Compilation.states b with
  | error e =>
    rw [hss] at h
    cases h
  | ok ss =>
    rw [hss] at h
    cases h
    exact ⟨ss, rfl, rfl⟩

theorem exists_started_of_made {s : Session} (hform : o.inputForm ≠ .session)
    (h : made files w o = .ok s) : ∃ b, started b = .ok s := by
  have hmade : made files w o = tree files w o >>= started := by
    unfold made
    cases hf : o.inputForm with
    | session => exact absurd hf hform
    | _ => rfl
  rw [hmade] at h
  cases htree : tree files w o with
  | error c =>
    rw [htree] at h
    cases h
  | ok b =>
    rw [htree] at h
    exact ⟨b, h⟩

/-- The session of the inputs is read back from its snapshot. -/
theorem ofSnapshot?_made {s : Session} (h : made files w o = .ok s)
    (hrows : o.inputForm = .session ∨ ∀ st ∈ s.states, st.row.length ≤ 2 ^ 64) :
    Session.ofSnapshot? s.snapshot = some s := by
  by_cases hform : o.inputForm = .session
  · have hmade : made files w o = restored files w o := by rw [made, hform]
    rw [hmade, restored] at h
    cases htext : text files w o with
    | error c =>
      rw [htext] at h
      cases h
    | ok t =>
      rw [htext] at h
      change orCode 1 (Session.ofSnapshot? t) = .ok s at h
      cases hread : Session.ofSnapshot? t with
      | none =>
        rw [hread] at h
        cases h
      | some s' =>
        rw [hread] at h
        cases h
        obtain ⟨hfits, hplaced, hfile⟩ := Session.fits_of_ofSnapshot? hread
        rw [Session.ofSnapshot?_snapshot hfits hplaced, ← hfile]
  · obtain ⟨b, hb⟩ := exists_started_of_made hform h
    obtain ⟨ss, hss, rfl⟩ := exists_states_of_started hb
    have hfits := Compilation.fits_states hss (hrows.resolve_left hform)
    exact Session.ofSnapshot?_snapshot (by simpa [Session.fits, Session.ofStates] using hfits)
      (.inr rfl)

theorem afterAll_eq (hstage : o.stage = none) (h : accepted o logLevel = .ok ()) :
    afterAll files w o logLevel = afterSession files w o := by
  simp only [afterAll, h, hstage]

theorem afterAll_untouched (h : o.stage.isSome ∨ accepted o logLevel ≠ .ok ()) :
    afterAll files w o logLevel = w := by
  unfold afterAll
  cases haccepted : accepted o logLevel with
  | error c => rfl
  | ok _ =>
    cases hstage : o.stage with
    | some stage => rfl
    | none => simp [hstage, haccepted] at h

end

end KnittingPattern.Command
