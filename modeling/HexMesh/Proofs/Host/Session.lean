import HexMesh.Host.Session

/-!
Computations in a session.

An attempt changes a session and may end in a fault.  What stands behind the first part of a chain
runs in the session that this part leaves, and does not run at all after a fault, so that a run is
followed part by part.  Most of what is asked about a session afterwards is what its storage holds
and what was said.
-/

namespace HexMesh

/-! ## Computations that change a state and may end in a fault -/

section Computations

variable {ε α β S : Type} {x : ExceptT ε (StateM S) α} {f : α → ExceptT ε (StateM S) β}
  {w w' : S}

theorem run_bind_of_ok {a : α} (h : x.run.run w = (.ok a, w')) :
    (x >>= f).run.run w = (f a).run.run w' := by
  rw [ExceptT.run_bind, StateT.run_bind, h]
  rfl

theorem run_bind_of_error {e : ε} (h : x.run.run w = (.error e, w')) :
    (x >>= f).run.run w = (.error e, w') := by
  rw [ExceptT.run_bind, StateT.run_bind, h]
  rfl

theorem run_adapt {ε' : Type} {r : Except ε α} (g : ε → ε') (h : x.run.run w = (r, w')) :
    (ExceptT.adapt g x).run.run w = (r.mapError g, w') := by
  show (Except.mapError g <$> x.run).run w = _
  rw [StateT.run_map, h]
  rfl

theorem run_bind_lift (x : StateM S α) (f : α → ExceptT ε (StateM S) β) (w : S) :
    ((liftM x : ExceptT ε (StateM S) α) >>= f).run.run w =
      (f (x.run w).1).run.run (x.run w).2 := rfl

theorem run_ofExcept (x : Except ε α) (w : S) :
    (MonadExcept.ofExcept x : ExceptT ε (StateM S) α).run.run w = (x, w) := by
  cases x <;> rfl

end Computations

/-! ## Sessions -/

namespace Session

/-- A computation in a session that may end in a fault. -/
abbrev Attempt (σ ε α : Type) := ExceptT ε (StateM (Session σ)) α

variable {σ : Type} {w w' w'' : Session σ} {storage storage' : σ}
  {lines lines' : List String}

/-- From one session to another: what is in the storage now and what was told to the terminal.
The random words stay. -/
structure LeadsTo (w : Session σ) (storage : σ) (lines : List String) (w' : Session σ) : Prop where
  storage : w'.storage = storage
  said : w'.said = w.said ++ lines
  words : w'.words = w.words

theorem LeadsTo.refl (w : Session σ) : w.LeadsTo w.storage [] w :=
  ⟨rfl, (List.append_nil _).symm, rfl⟩

theorem LeadsTo.trans (h : w.LeadsTo storage lines w') (h' : w'.LeadsTo storage' lines' w'') :
    w.LeadsTo storage' (lines ++ lines') w'' :=
  ⟨h'.storage, by rw [h'.said, h.said, List.append_assoc], h'.words.trans h.words⟩

theorem leadsTo_forM (act : String → StateM (Session σ) Unit) (told : String → List String)
    (h : ∀ line (w : Session σ), w.LeadsTo w.storage (told line) ((act line).run w).2)
    (lines : List String) (w : Session σ) :
    w.LeadsTo w.storage (lines.flatMap told) ((lines.forM act).run w).2 := by
  induction lines generalizing w with
  | nil => exact .refl w
  | cons line rest ih =>
    have hfirst := h line w
    have hrest := ih ((act line).run w).2
    rw [hfirst.storage] at hrest
    exact hfirst.trans hrest

variable [Storage σ]

theorem run_create_of_ok {path text : String}
    (h : Storage.create w.storage path text = .ok storage) :
    (Host.create path text : StateM (Session σ) _).run w = (.ok (), { w with storage }) := by
  show (Session.change fun storage => Storage.create storage path text).run w = _
  simp only [Session.change, StateT.run_bind, StateT.run_get, pure_bind, h]
  rfl

theorem run_create_of_error {path text : String} {reason : Refusal}
    (h : Storage.create w.storage path text = .error reason) :
    (Host.create path text : StateM (Session σ) _).run w = (.error reason, w) := by
  show (Session.change fun storage => Storage.create storage path text).run w = _
  simp only [Session.change, StateT.run_bind, StateT.run_get, pure_bind, h]
  rfl

omit [Storage σ] in
theorem leadsTo_say (line : String) (w : Session σ) :
    w.LeadsTo w.storage [line] { w with said := w.said ++ [line] } := ⟨rfl, rfl, rfl⟩

theorem leadsTo_forM_say (lines : List String) (w : Session σ) :
    w.LeadsTo w.storage lines ((lines.forM Host.say : StateM (Session σ) Unit).run w).2 := by
  have h := leadsTo_forM Host.say (fun line => [line]) leadsTo_say lines w
  rwa [List.flatMap_singleton'] at h

theorem leadsTo_forM_warn (lines : List String) (w : Session σ) :
    w.LeadsTo w.storage [] ((lines.forM Host.warn : StateM (Session σ) Unit).run w).2 := by
  have hwarn (line : String) (w : Session σ) :
      w.LeadsTo w.storage [] { w with warned := w.warned ++ [line] } :=
    ⟨rfl, (List.append_nil _).symm, rfl⟩
  have h := leadsTo_forM Host.warn (fun _ => []) hwarn lines w
  rwa [List.flatMap_eq_nil_iff.mpr fun _ _ => rfl] at h

end Session
end HexMesh
