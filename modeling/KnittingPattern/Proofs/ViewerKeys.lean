import KnittingPattern.Proofs.FilesApart
import KnittingPattern.Proofs.SessionRestarts
import KnittingPattern.Viewer
import Mathlib.Data.List.Induction

/-! # Keys one after the other

What a row of keys comes to in a viewer that is opened on a session.  The session has done what the
keys ask of it, the note is that of the last key if it saves, and the file holds the session as the
last save that succeeded has found it.  Main theorem: `Viewer.handleAll_handled`. -/

namespace KnittingPattern

/-- What an action asks of a session; saving and quitting ask nothing. -/
def Action.operation? : Action → Option Operation
  | next => some .next
  | previous => some .previous
  | first => some .first
  | last => some .last
  | phraseRight => some .moveRight
  | phraseLeft => some .moveLeft
  | count what how => some (.count what how)
  | save | quit => none

/-- The actions of the keys that do something. -/
def Action.ofKeys (ks : List Key) : List Action := ks.filterMap ofKey?

theorem Action.ofKeys_concat (ks : List Key) (k : Key) :
    ofKeys (ks ++ [k]) = ofKeys ks ++ (ofKey? k).toList := by
  unfold ofKeys
  cases h : ofKey? k <;> simp [h]

theorem Session.run_append (s : Session) (ops ops' : List Operation) :
    (s.run (ops ++ ops')).2 = ((s.run ops).2.run ops').2 := by
  induction ops generalizing s with
  | nil => rfl
  | cons op ops ih => exact ih (s.operate op).2

namespace Viewer

theorem step_eq (a : Action) (s : Session) : step a s = (s.run a.operation?.toList).2 := by
  cases a <;> rfl

variable {σ : Type} (files : FileAccess (StateM σ))

/-- The viewer and the files after keys that are handled in their order. -/
def after (v : Viewer) (w : σ) (ks : List Key) : Viewer × σ := (ks.foldlM (handle files) v).run w

theorem after_nil (v : Viewer) (w : σ) : after files v w [] = (v, w) := rfl

theorem after_concat (v : Viewer) (w : σ) (ks : List Key) (k : Key) :
    after files v w (ks ++ [k]) =
      ((after files v w ks).1.handle files k).run (after files v w ks).2 := by
  simp only [after, List.foldlM_append, List.foldlM_cons, List.foldlM_nil, bind_pure]
  rfl

/-- Among the keys there is one that saves, between `pre` and `post`.  It finds the session `s`, and
`answer` is what comes of it. -/
structure Saves (v : Viewer) (w : σ) (ks pre post : List Key) (s : Session)
    (answer : Except SessionError Unit) : Prop where
  keys : ∃ k, ks = pre ++ k :: post ∧ Action.ofKey? k = some .save
  session : (after files v w pre).1.session = s
  answer : ((s.save files).run (after files v w pre).2).1 = answer

/-- The last of the saves that succeed. -/
structure LastSaves (v : Viewer) (w : σ) (ks pre post : List Key) (s : Session) : Prop extends
    Saves files v w ks pre post s (.ok ()) where
  later : ∀ {pre' post' t answer}, Saves files v w ks pre' post' t answer →
    pre.length < pre'.length → answer ≠ .ok ()

/-- Behind the first `n` keys and one more a save fails that has changed the file: it has opened it
and not been able to write all of the session. -/
def Spoils (v : Viewer) (w : σ) (ks : List Key) (n : Nat) (path : String) : Prop :=
  ∃ pre post s e, Saves files v w ks pre post s (.error e) ∧ n < pre.length ∧
    files.text? ((s.save files).run (after files v w pre).2).2 path ≠
      files.text? (after files v w pre).2 path

/-- What keys come to in a viewer that is opened on a session `s`. -/
structure Handled (s : Session) (name : String) (w : σ) (ks : List Key) (v : Viewer) (w' : σ) :
    Prop where
  session : v.session = (s.run ((Action.ofKeys ks).filterMap Action.operation?)).2
  noted : v.status.isSome ↔ (Action.ofKeys ks).getLast? = some .save
  note : ∀ {pre post t answer}, Saves files (ofSession s name) w ks pre post t answer →
    Action.ofKeys post = [] → v.status = some (match answer with
      | .ok _ => "saved " ++ s.file.getD ""
      | .error e => "save failed: " ++ e.message)
  quitting : v.quitting ↔ .quit ∈ Action.ofKeys ks
  unwritten : .save ∉ Action.ofKeys ks → w' = w
  written : ∀ {pre post t}, LastSaves files (ofSession s name) w ks pre post t →
    ∃ path, s.file = some path ∧ (files.text? w' path = some t.snapshot ∨
      Spoils files (ofSession s name) w ks pre.length path)

variable {files} {v : Viewer} {w : σ} {k : Key}

theorem run_handle_idle (h : Action.ofKey? k = none) : (v.handle files k).run w = (v, w) := by
  rw [handle, h]
  rfl

theorem run_handle_act {a : Action} (h : Action.ofKey? k = some a) (ha : a ≠ .save) :
    (v.handle files k).run w = (⟨step a v.session, v.name, none, v.quitting || a == .quit⟩, w) := by
  rw [handle, h]
  cases a <;> first | rfl | exact absurd rfl ha

theorem run_handle_save (h : Action.ofKey? k = some .save) :
    (v.handle files k).run w =
      (⟨v.session, v.name, some (report v.session ((v.session.save files).run w).1),
        v.quitting || Action.save == .quit⟩, ((v.session.save files).run w).2) := by
  rw [handle, h]
  rfl

theorem run_handle_unwritten (h : Action.ofKey? k ≠ some .save) :
    ((v.handle files k).run w).2 = w := by
  cases ha : Action.ofKey? k with
  | none => rw [run_handle_idle ha]
  | some a =>
    rw [run_handle_act ha]
    rintro rfl
    exact h ha

theorem session_handle : ((v.handle files k).run w).1.session =
    (v.session.run ((Action.ofKey? k).toList.filterMap Action.operation?)).2 := by
  cases ha : Action.ofKey? k with
  | none =>
    rw [run_handle_idle ha]
    rfl
  | some a =>
    by_cases hsave : a = .save
    · subst hsave
      rw [run_handle_save ha]
      rfl
    · rw [run_handle_act ha hsave]
      refine (step_eq a v.session).trans ?_
      cases a <;> rfl

theorem quitting_handle : ((v.handle files k).run w).1.quitting ↔
    v.quitting ∨ Action.ofKey? k = some .quit := by
  cases ha : Action.ofKey? k with
  | none => simp [run_handle_idle ha]
  | some a =>
    by_cases hsave : a = .save
    · subst hsave
      simp [run_handle_save ha]
    · simp [run_handle_act ha hsave]

theorem isSome_status_handle : ((v.handle files k).run w).1.status.isSome ↔
    Action.ofKey? k = some .save ∨ Action.ofKey? k = none ∧ v.status.isSome := by
  cases ha : Action.ofKey? k with
  | none => simp [run_handle_idle ha]
  | some a =>
    by_cases hsave : a = .save
    · subst hsave
      simp [run_handle_save ha]
    · simp [run_handle_act ha hsave, hsave]

theorem session_after (v : Viewer) (w : σ) (ks : List Key) : (after files v w ks).1.session =
    (v.session.run ((Action.ofKeys ks).filterMap Action.operation?)).2 := by
  induction ks using List.reverseRecOn with
  | nil => rfl
  | append_singleton ks k ih =>
    rw [after_concat, session_handle, ih, Action.ofKeys_concat, List.filterMap_append,
      Session.run_append]

theorem file_after (v : Viewer) (w : σ) (ks : List Key) :
    (after files v w ks).1.session.file = v.session.file := by
  have hrun : ∀ ops (s : Session), (s.run ops).2.file = s.file := by
    intro ops
    induction ops with
    | nil => exact fun _ => rfl
    | cons op ops ih => exact fun s => (ih _).trans (s.file_operate op)
  rw [session_after, hrun]

theorem quitting_after (v : Viewer) (w : σ) (ks : List Key) :
    (after files v w ks).1.quitting ↔ v.quitting ∨ .quit ∈ Action.ofKeys ks := by
  induction ks using List.reverseRecOn with
  | nil => simp [after_nil, Action.ofKeys]
  | append_singleton ks k ih =>
    rw [after_concat, quitting_handle, ih, Action.ofKeys_concat, List.mem_append, Option.mem_toList,
      or_assoc]

theorem isSome_status_after (s : Session) (name : String) (w : σ) (ks : List Key) :
    (after files (ofSession s name) w ks).1.status.isSome ↔
      (Action.ofKeys ks).getLast? = some .save := by
  induction ks using List.reverseRecOn with
  | nil => simp [after_nil, Action.ofKeys, ofSession]
  | append_singleton ks k ih =>
    rw [after_concat, isSome_status_handle, ih, Action.ofKeys_concat]
    cases Action.ofKey? k <;> simp

/-- Keys that do nothing may be left out at the end. -/
theorem after_idle (v : Viewer) (w : σ) (ks : List Key) {post : List Key}
    (h : Action.ofKeys post = []) : after files v w (ks ++ post) = after files v w ks := by
  induction post using List.reverseRecOn with
  | nil => rw [List.append_nil]
  | append_singleton post k ih =>
    rw [Action.ofKeys_concat, List.append_eq_nil_iff, Option.toList_eq_nil_iff] at h
    rw [← List.append_assoc, after_concat, run_handle_idle h.2, ih h.1]

theorem after_unwritten (v : Viewer) (w : σ) {ks : List Key} (h : .save ∉ Action.ofKeys ks) :
    (after files v w ks).2 = w := by
  induction ks using List.reverseRecOn with
  | nil => rfl
  | append_singleton ks k ih =>
    rw [Action.ofKeys_concat, List.mem_append, Option.mem_toList] at h
    rw [after_concat, run_handle_unwritten fun hk => h (.inr hk), ih fun hks => h (.inl hks)]

variable {ready : σ → Prop} {s t : Session} {path : String}

theorem run_save_of_file (h : s.file = some path) (w : σ) : (s.save files).run w =
    (((files.write path s.snapshot).run w).1.mapError (.inaccessible path),
      ((files.write path s.snapshot).run w).2) := by
  rw [Session.save, h]
  rfl

theorem run_save_of_no_file (h : s.file = none) (w : σ) :
    (s.save files).run w = (.error .noSnapshotFile, w) := by
  rw [Session.save, h]
  rfl

theorem ready_save (hfiles : files.Commits ready) (s : Session) (hw : ready w) :
    ready ((s.save files).run w).2 := by
  cases h : s.file with
  | none => rwa [run_save_of_no_file h]
  | some path =>
    rw [run_save_of_file h]
    exact hfiles.ready_write hw path s.snapshot

theorem exists_file_of_save (h : ((s.save files).run w).1 = .ok ()) :
    ∃ path, s.file = some path := by
  cases hfile : s.file with
  | none =>
    rw [run_save_of_no_file hfile] at h
    cases h
  | some path => exact ⟨path, rfl⟩

theorem text?_save (hfiles : files.Commits ready) (hw : ready w) (hfile : s.file = some path)
    (h : ((s.save files).run w).1 = .ok ()) :
    files.text? ((s.save files).run w).2 path = some s.snapshot := by
  rw [run_save_of_file hfile] at h ⊢
  cases hwrite : (files.write path s.snapshot).run w with
  | mk answer w' =>
    rw [hwrite] at h
    cases answer with
    | error e => cases h
    | ok _ => exact hfiles.written hw hwrite

/-- Of a tree of files, a save that fails changes nothing. -/
theorem run_save_of_error {t : FileTree} {e : SessionError}
    (h : ((s.save FileTree.access).run t).1 = .error e) :
    ((s.save FileTree.access).run t).2 = t := by
  cases hfile : s.file with
  | none => rw [run_save_of_no_file hfile]
  | some path =>
    rw [run_save_of_file hfile] at h ⊢
    cases hwrite : (FileTree.access.write path s.snapshot).run t with
    | mk answer t' =>
      rw [hwrite] at h
      cases answer with
      | error _ => exact FileTree.run_access_write_of_error hwrite
      | ok _ => cases h

theorem ready_after (hfiles : files.Commits ready) (v : Viewer) (hw : ready w) (ks : List Key) :
    ready (after files v w ks).2 := by
  induction ks using List.reverseRecOn with
  | nil => exact hw
  | append_singleton ks k ih =>
    rw [after_concat]
    by_cases hk : Action.ofKey? k = some .save
    · rw [run_handle_save hk]
      exact ready_save hfiles _ ih
    · rwa [run_handle_unwritten hk]

theorem Saves.concat {ks pre post : List Key} {answer : Except SessionError Unit}
    (h : Saves files v w ks pre post t answer) (k : Key) :
    Saves files v w (ks ++ [k]) pre (post ++ [k]) t answer := by
  obtain ⟨⟨k', rfl, hk'⟩, hsession, hanswer⟩ := h
  exact ⟨⟨k', by simp, hk'⟩, hsession, hanswer⟩

/-- As long as all saves leave a file as it is, the file holds what it held. -/
theorem text?_after (v : Viewer) (w : σ) (ks post : List Key)
    (h : ∀ {pre' post' t answer}, Saves files v w (ks ++ post) pre' post' t answer →
      ks.length ≤ pre'.length → files.text? ((t.save files).run (after files v w pre').2).2 path =
        files.text? (after files v w pre').2 path) :
    files.text? (after files v w (ks ++ post)).2 path =
      files.text? (after files v w ks).2 path := by
  induction post using List.reverseRecOn with
  | nil => rw [List.append_nil]
  | append_singleton post k ih =>
    rw [← List.append_assoc] at h ⊢
    rw [← ih fun hsaves => h (hsaves.concat k), after_concat]
    by_cases hk : Action.ofKey? k = some .save
    · rw [run_handle_save hk]
      exact h ⟨⟨k, rfl, hk⟩, rfl, rfl⟩ (by simp)
    · rw [run_handle_unwritten hk]

/-- The last save that succeeds leaves the session in its file.  There it stays, if the saves behind
it leave the file as it is. -/
theorem LastSaves.exists_text? (hfiles : files.Commits ready) {s : Session} {name : String}
    (hw : ready w) {ks pre post : List Key} (h : LastSaves files (ofSession s name) w ks pre post t) :
    ∃ path, s.file = some path ∧
      ((∀ {pre' post' u e}, Saves files (ofSession s name) w ks pre' post' u (.error e) →
        pre.length < pre'.length →
          files.text? ((u.save files).run (after files (ofSession s name) w pre').2).2 path =
            files.text? (after files (ofSession s name) w pre').2 path) →
        files.text? (after files (ofSession s name) w ks).2 path = some t.snapshot) := by
  obtain ⟨⟨⟨k, rfl, hk⟩, rfl, hok⟩, hlater⟩ := h
  obtain ⟨path, hpath⟩ := exists_file_of_save hok
  have hready := ready_after hfiles (ofSession s name) hw pre
  refine ⟨path, (file_after (ofSession s name) w pre).symm.trans hpath, fun hkept => ?_⟩
  rw [List.append_cons] at hlater hkept ⊢
  rw [text?_after]
  · rw [after_concat, run_handle_save hk]
    exact text?_save hfiles hready hpath hok
  · intro pre' post' u answer hsaves hle
    have hlt : pre.length < pre'.length := by simpa [Nat.succ_le_iff] using hle
    cases answer with
    | ok _ => exact absurd rfl (hlater hsaves hlt)
    | error e => exact hkept hsaves hlt

/-- Back to the row before, a save, a stitch, a key that does nothing, and the end. -/
def visit : List Key :=
  [.up, .char 'w', .char '+', .char 'x', .char 'q'].map fun code => ⟨code, false, false, false⟩

end Viewer
end KnittingPattern
