import HexMesh.Proofs.Host.Session
import HexMesh.Proofs.Tour.Drawing

/-!
What a step of the tour leaves behind.

A step makes its mesh, draws it and writes the drawing to a file.  Two things can go wrong, the
mesh and the file; the drawing cannot.  The storage changes in a single place, when the file is
written, so a step that fails has changed nothing.
-/

namespace HexMesh
namespace Tour

theorem ofExcept_shown_bind {K S α : Type} {d : Nat} (fault : Fault K → StepFault K)
    (mesh : Except (Fault K) (Mesh K d))
    (next : (d : Nat) × Mesh K d → ExceptT (StepFault K) (StateM S) α) :
    (MonadExcept.ofExcept (shown fault mesh) >>= next) =
      (MonadExcept.ofExcept (mesh.mapError fault) >>= fun m => next ⟨d, m⟩) := by
  cases mesh <;> rfl

variable {K : Type} [Scalar K] [Numeral K] [Transcendental K] {σ : Type} [Storage σ]
  {s : Settings K} {w : Session σ}

section Present

variable {d : Nat} {mesh : Mesh K d} {style : Style K} {drawing : Drawing K} {path : String}

theorem present_of_create (hdraw : mesh.draw style = .ok drawing) {next : σ}
    (hcreate : Storage.create w.storage path drawing.text = .ok next) :
    (present style path mesh : Session.Attempt σ (StepFault K) Summary).run.run w =
      (.ok (Summary.ofMesh mesh path), { w with storage := next }) := by
  unfold present
  rw [hdraw]
  refine (run_bind_of_ok (a := drawing) rfl).trans ?_
  rw [run_bind_lift, Session.run_create_of_ok hcreate]
  rfl

theorem present_of_refusal (hdraw : mesh.draw style = .ok drawing) {reason : Refusal}
    (hcreate : Storage.create w.storage path drawing.text = .error reason) :
    (present style path mesh : Session.Attempt σ (StepFault K) Summary).run.run w =
      (.error (.picture path reason), w) := by
  unfold present
  rw [hdraw]
  refine (run_bind_of_ok (a := drawing) rfl).trans ?_
  rw [run_bind_lift, Session.run_create_of_error hcreate]
  rfl

end Present

omit [Transcendental K] in
theorem run_readMesh (path : String) (w : Session σ) :
    (readMesh path : Session.Attempt σ (StepFault K) (Mesh K 2)).run.run w =
      ((readFrom w.storage path).mapError (.input path), w) := by
  have hread : (Host.read path : StateM (Session σ) _).run w = (Storage.read w.storage path, w) :=
    rfl
  unfold readMesh readFrom
  rw [run_bind_lift, hread]
  cases Storage.read w.storage path <;> exact run_ofExcept _ _

variable [SquareRoot K]

omit [Transcendental K] in
theorem exists_run_loadMesh (path : String) (w : Session σ) :
    ∃ w', w.LeadsTo w.storage [] w' ∧
      (loadMesh path : Session.Attempt σ (StepFault K) (Mesh K 2)).run.run w =
        ((readFrom w.storage path).mapError (.input path), w') := by
  have hread := run_readMesh (K := K) path w
  unfold loadMesh
  cases hfound : (readFrom w.storage path : Except (Fault K) (Mesh K 2)) with
  | error fault =>
    rw [hfound] at hread
    exact ⟨w, .refl w, run_bind_of_error hread⟩
  | ok mesh =>
    rw [hfound] at hread
    rw [run_bind_of_ok (a := mesh) hread]
    by_cases hissues : mesh.inspect.hasIssues = true
    · refine ⟨_, Session.leadsTo_forM_warn (warningLines path mesh.inspect) w, ?_⟩
      simp only [if_pos hissues]
      rfl
    · refine ⟨w, .refl w, ?_⟩
      simp only [if_neg hissues]
      rfl

/-- To take a step is to present the mesh that it makes.  Before that it may warn of a mesh from a
file, and changes nothing else. -/
theorem exists_run_take (s : Settings K) (step : Step) (w : Session σ) :
    ∃ w', w.LeadsTo w.storage [] w' ∧
      (take s step : Session.Attempt σ (StepFault K) Summary).run.run w =
        (MonadExcept.ofExcept (meshOf s w.storage w.words step) >>= fun made =>
          (present s.style (s.picture step.number) made.2 :
            Session.Attempt σ (StepFault K) Summary)).run.run w' := by
  cases step with
  | loading =>
    obtain ⟨w', hleads, hload⟩ := exists_run_loadMesh (K := K) s.input w
    refine ⟨w', hleads, ?_⟩
    rw [meshOf, ofExcept_shown_bind]
    cases hfound : (readFrom w.storage s.input : Except (Fault K) (Mesh K 2)) with
    | error fault =>
      rw [hfound] at hload
      exact run_bind_of_error hload
    | ok mesh =>
      rw [hfound] at hload
      exact run_bind_of_ok hload
  | merging | curving | extruding | bending | grading =>
    refine ⟨w, .refl w, ?_⟩
    rw [meshOf, ofExcept_shown_bind]
    rfl
  | distorting =>
    have hwords : (drawWords s.seed : StateM (Session σ) WordStream).run w =
        (s.seed.elim w.words Random.ofSeed, w) := by
      cases s.seed <;> rfl
    refine ⟨w, .refl w, ?_⟩
    rw [meshOf, ofExcept_shown_bind]
    refine (run_bind_lift (drawWords s.seed) _ w).trans ?_
    rw [hwords]

/-! ## Steps one after the other -/

/-- What a step shows: the text of the picture of its mesh, and a summary. -/
inductive Shows (s : Settings K) (words : WordStream) (storage : σ) (step : Step) :
    String → Summary → Prop where
  | mk {made : (d : Nat) × Mesh K d} {drawing : Drawing K}
    (makes : meshOf s storage words step = .ok made)
    (draws : made.2.draw s.style = .ok drawing)
    (pictures : made.2.IsPicture s.style drawing.text) :
    Shows s words storage step drawing.text (Summary.ofMesh made.2 (s.picture step.number))

/-- Steps are taken one after the other.  Each finds the storage as the one before left it, with
one more picture. -/
inductive Takes (s : Settings K) (words : WordStream) :
    σ → List Step → List Summary → σ → Prop where
  | nil {storage : σ} : Takes s words storage [] [] storage
  | cons {storage next last : σ} {step : Step} {steps : List Step} {text : String}
    {summary : Summary} {summaries : List Summary}
    (shows : Shows s words storage step text summary)
    (writes : Storage.create storage (s.picture step.number) text = .ok next)
    (later : Takes s words next steps summaries last) :
    Takes s words storage (step :: steps) (summary :: summaries) last

/-- A step fails when it cannot make its mesh or when its picture is refused. -/
inductive Fails (s : Settings K) (words : WordStream) (storage : σ) (step : Step) :
    StepFault K → Prop where
  | mesh {fault : StepFault K} (faults : meshOf s storage words step = .error fault) :
    Fails s words storage step fault
  | picture {text : String} {summary : Summary} {reason : Refusal}
    (shows : Shows s words storage step text summary)
    (refuses : Storage.create storage (s.picture step.number) text = .error reason) :
    Fails s words storage step (.picture (s.picture step.number) reason)

theorem Takes.eq_of_nil {storage last : σ} {words : WordStream} {summaries : List Summary}
    (h : Takes s words storage [] summaries last) : last = storage := by
  cases h
  rfl

/-- The summaries name the pictures of the steps, in the order of the steps. -/
theorem Takes.map_output {storage last : σ} {steps : List Step} {words : WordStream}
    {summaries : List Summary} (h : Takes s words storage steps summaries last) :
    summaries.map Summary.output = steps.map fun step => s.picture step.number := by
  induction h with
  | nil => rfl
  | cons shows _ _ ih =>
    cases shows
    exact congrArg _ ih

/-- A step is taken or fails, and a step that fails leaves the storage as it was. -/
theorem take_cases (s : Settings K) (step : Step) (w : Session σ) :
    (∃ text summary next w', Shows s w.words w.storage step text summary ∧
      Storage.create w.storage (s.picture step.number) text = .ok next ∧ w.LeadsTo next [] w' ∧
      (take s step : Session.Attempt σ (StepFault K) Summary).run.run w = (.ok summary, w')) ∨
    ∃ fault w', Fails s w.words w.storage step fault ∧ w.LeadsTo w.storage [] w' ∧
      (take s step : Session.Attempt σ (StepFault K) Summary).run.run w = (.error fault, w') := by
  obtain ⟨w', hleads, hrun⟩ := exists_run_take s step w
  rw [hrun]
  cases hmesh : meshOf s w.storage w.words step with
  | error fault => exact .inr ⟨fault, w', .mesh hmesh, hleads, rfl⟩
  | ok made =>
    obtain ⟨drawing, hdraw, hpicture⟩ := exists_draw_of_meshOf hmesh s.style
    cases hcreate : Storage.create w.storage (s.picture step.number) drawing.text with
    | error reason =>
      have hrefused := present_of_refusal hdraw (hleads.storage ▸ hcreate)
      exact .inr ⟨_, w', .picture ⟨hmesh, hdraw, hpicture⟩ hcreate, hleads, hrefused⟩
    | ok next =>
      have hpresent := present_of_create hdraw (hleads.storage ▸ hcreate)
      exact .inl ⟨_, _, next, { w' with storage := next }, ⟨hmesh, hdraw, hpicture⟩, hcreate,
        ⟨rfl, hleads.said, hleads.words⟩, hpresent⟩

end Tour
end HexMesh
