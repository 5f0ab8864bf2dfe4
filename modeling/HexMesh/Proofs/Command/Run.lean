import HexMesh.Command.Run
import HexMesh.Proofs.Mesh.Summary
import HexMesh.Proofs.Number.Rational
import HexMesh.Proofs.Picture.Frame
import HexMesh.Proofs.Tour.Steps

/-!
The steps of a run.

A run sets out, takes the steps that were asked for and winds up.  The steps are taken one after
the other: by induction, either all of them are taken, or some first ones are and the next one
fails.  What a failed run leaves in its storage are the pictures of the steps before the failure;
it does not come as far as the summary.
-/

namespace HexMesh
namespace Command

open Tour

variable {K σ : Type} [Storage σ]

/-! ## One step after the other -/

section Steps

variable [Scalar K] [Numeral K] [SquareRoot K] [Transcendental K] (s : Settings K)
  (verbose : Bool)

/-- Take a step and tell about it. -/
def takeAndTell {m : Type → Type} [Monad m] [Host m] (step : Step) :
    ExceptT (RunFault K) m Summary := do
  let summary ← ExceptT.adapt (RunFault.step step) (Tour.take s step)
  (sayAll (summaryLines verbose summary) : m Unit)
  return summary

theorem takeSteps_cons {m : Type → Type} [Monad m] [LawfulMonad m] [Host m] (step : Step)
    (steps : List Step) :
    (takeSteps s verbose (step :: steps) : ExceptT (RunFault K) m (List Summary)) = do
      let summary ← takeAndTell s verbose step
      let summaries ← takeSteps s verbose steps
      return summary :: summaries :=
  List.mapM_cons

theorem takeAndTell_cases (step : Step) (w : Session σ) :
    (∃ text summary next w', Shows s w.words w.storage step text summary ∧
      Storage.create w.storage (s.picture step.number) text = .ok next ∧
      w.LeadsTo next (summaryLines verbose summary) w' ∧
      (takeAndTell s verbose step : Session.Attempt σ (RunFault K) Summary).run.run w =
        (.ok summary, w')) ∨
    ∃ fault w', Fails s w.words w.storage step fault ∧ w.LeadsTo w.storage [] w' ∧
      (takeAndTell s verbose step : Session.Attempt σ (RunFault K) Summary).run.run w =
        (.error (.step step fault), w') := by
  obtain ⟨text, summary, next, w₁, hshows, hwrites, hleads, htake⟩ |
    ⟨fault, w₁, hfails, hleads, htake⟩ := take_cases s step w
  · have htold := Session.leadsTo_forM_say (summaryLines verbose summary) w₁
    rw [hleads.storage] at htold
    refine .inl ⟨text, summary, next, _, hshows, hwrites, hleads.trans htold, ?_⟩
    exact run_bind_of_ok (run_adapt (RunFault.step step) htake)
  · exact .inr ⟨fault, w₁, hfails, hleads,
      run_bind_of_error (run_adapt (RunFault.step step) htake)⟩

/-- Steps are taken up to the first one that fails. -/
theorem takeSteps_cases (steps : List Step) (w : Session σ) :
    (∃ summaries last w', Takes s w.words w.storage steps summaries last ∧
      w.LeadsTo last (summaries.flatMap (summaryLines verbose)) w' ∧
      (takeSteps s verbose steps : Session.Attempt σ (RunFault K) (List Summary)).run.run w =
        (.ok summaries, w')) ∨
    ∃ done failed rest summaries last fault w', steps = done ++ failed :: rest ∧
      Takes s w.words w.storage done summaries last ∧ Fails s w.words last failed fault ∧
      w.LeadsTo last (summaries.flatMap (summaryLines verbose)) w' ∧
      (takeSteps s verbose steps : Session.Attempt σ (RunFault K) (List Summary)).run.run w =
        (.error (.step failed fault), w') := by
  induction steps generalizing w with
  | nil => exact .inl ⟨[], w.storage, w, .nil, .refl w, rfl⟩
  | cons step steps ih =>
    rw [takeSteps_cons]
    obtain ⟨text, summary, next, w₁, hshows, hwrites, hfirst, htake⟩ |
      ⟨fault, w₁, hfails, hfirst, htake⟩ := takeAndTell_cases s verbose step w
    · rw [run_bind_of_ok htake]
      have hnext := ih w₁
      rw [hfirst.storage, hfirst.words] at hnext
      obtain ⟨summaries, last, w', htakes, hlater, hrun⟩ |
        ⟨done, failed, rest, summaries, last, fault, w', rfl, htakes, hfails, hlater, hrun⟩ :=
        hnext
      · refine .inl ⟨summary :: summaries, last, w', htakes.cons hshows hwrites,
          hfirst.trans hlater, ?_⟩
        exact run_bind_of_ok hrun
      · refine .inr ⟨step :: done, failed, rest, summary :: summaries, last, fault, w', rfl,
          htakes.cons hshows hwrites, hfails, hfirst.trans hlater, ?_⟩
        exact run_bind_of_error hrun
    · exact .inr ⟨[], step, steps, [], w.storage, fault, w₁, rfl, .nil, hfails, hfirst,
        run_bind_of_error htake⟩

end Steps

/-! ## Winding up -/

/-- Everything that a run does after its last step. -/
def windUp {m : Type → Type} [Monad m] [Host m] (summary? : Option String)
    (summaries : List Summary) : ExceptT (RunFault K) m Unit := do
  if let some path := summary? then writeSummaries path summaries
  let tenths ← (Host.elapsed : m Nat)
  (Host.say s!"Done! Total time: {tenths / 10}.{tenths % 10}s" : m Unit)

/-- The line that ends a run in a session, where no time passes. -/
def closing : String := "Done! Total time: 0.0s"

/-- How a run ends that took all its steps: with which exit code, what it tells at last, and what
is in the storage then.  From the document that is wanted, the summaries of all steps are read. -/
inductive Ends (summaries : List Summary) (storage : σ) :
    Option String → UInt32 → List String → σ → Prop where
  | plain : Ends summaries storage none 0 [closing] storage
  | summarized {path text : String} {last : σ} (holds : Summary.ofText? text = some summaries)
    (writes : Storage.create storage path text = .ok last) :
    Ends summaries storage (some path) 0 [s!"Summary: {path}", closing] last
  | refused {path text : String} {reason : Refusal}
    (holds : Summary.ofText? text = some summaries)
    (refuses : Storage.create storage path text = .error reason) :
    Ends summaries storage (some path) 1 [] storage

theorem run_writeSummaries_of_ok {path : String} {summaries : List Summary} {w : Session σ}
    {next : σ} (h : Storage.create w.storage path (Json.list (summaries.map Summary.json)).text =
      .ok next) :
    (writeSummaries path summaries : Session.Attempt σ (RunFault K) Unit).run.run w =
      (.ok (), { w with storage := next, said := w.said ++ [s!"Summary: {path}"] }) := by
  unfold writeSummaries
  rw [run_bind_lift, Session.run_create_of_ok h]
  rfl

theorem run_writeSummaries_of_error {path : String} {summaries : List Summary} {w : Session σ}
    {reason : Refusal}
    (h : Storage.create w.storage path (Json.list (summaries.map Summary.json)).text =
      .error reason) :
    (writeSummaries path summaries : Session.Attempt σ (RunFault K) Unit).run.run w =
      (.error (.summary path reason), w) := by
  unfold writeSummaries
  rw [run_bind_lift, Session.run_create_of_error h]
  rfl

theorem run_windUp_none (summaries : List Summary) (w : Session σ) :
    (windUp none summaries : Session.Attempt σ (RunFault K) Unit).run.run w =
      (.ok (), { w with said := w.said ++ [closing] }) := rfl

theorem windUp_cases (summary? : Option String) (summaries : List Summary) (w : Session σ) :
    (∃ lines last w', Ends summaries w.storage summary? 0 lines last ∧ w.LeadsTo last lines w' ∧
      (windUp summary? summaries : Session.Attempt σ (RunFault K) Unit).run.run w = (.ok (), w')) ∨
    ∃ fault, Ends summaries w.storage summary? 1 [] w.storage ∧
      (windUp summary? summaries : Session.Attempt σ (RunFault K) Unit).run.run w =
        (.error fault, w) := by
  cases summary? with
  | none =>
    exact .inl ⟨_, _, _, .plain, Session.leadsTo_say closing w, run_windUp_none summaries w⟩
  | some path =>
    have hwindUp : (windUp (some path) summaries : Session.Attempt σ (RunFault K) Unit) =
        writeSummaries path summaries >>= fun _ => windUp none summaries := rfl
    rw [hwindUp]
    have hholds := Summary.ofText?_text summaries
    cases hcreate : Storage.create w.storage path (Json.list (summaries.map Summary.json)).text with
    | error reason =>
      exact .inr ⟨_, .refused hholds hcreate,
        run_bind_of_error (run_writeSummaries_of_error hcreate)⟩
    | ok next =>
      have hwrites : w.LeadsTo next [s!"Summary: {path}"]
          { w with storage := next, said := w.said ++ [s!"Summary: {path}"] } := ⟨rfl, rfl, rfl⟩
      rw [run_bind_of_ok (run_writeSummaries_of_ok hcreate)]
      exact .inl ⟨_, next, _, .summarized hholds hcreate,
        hwrites.trans (Session.leadsTo_say closing _), run_windUp_none summaries _⟩

/-! ## The whole run -/

section Whole

variable [Scalar K] [Numeral K] {m : Type → Type} [Monad m] [Host m]

/-- Everything that a run does before its first step: it finds its settings and checks them, says
what it is about to do, and makes the directory for the pictures.  The settings remain, and whether
to tell more. -/
def setOut (o : Options K) : ExceptT (RunFault K) m (Settings K × Bool) := do
  let file? ← findSettings o.config
  let s ← MonadExcept.ofExcept (override (file?.elim .standard FileSettings.resolve) o)
  let verbose := o.verbose || file?.elim false FileSettings.verbose
  (sayAll heading : m Unit)
  if verbose then (sayAll (settingsLines s (Step.selected o.only)) : m Unit)
  prepare s.outputDirectory
  return (s, verbose)

variable [SquareRoot K] [Transcendental K]

theorem perform_eq [LawfulMonad m] (o : Options K) :
    (perform o : ExceptT (RunFault K) m Unit) = (do
      let settled ← setOut o
      let summaries ← takeSteps settled.1 settled.2 (Step.selected o.only)
      windUp o.summary summaries) := by
  unfold perform setOut
  simp only [bind_assoc]
  refine bind_congr fun file? => bind_congr fun s => bind_congr fun _ => ?_
  split <;> simp only [bind_assoc, pure_bind] <;> rfl

end Whole

variable [Scalar K] [Numeral K] [SquareRoot K] [Transcendental K] {arguments : List String}
  {o : Options K} {w w' : Session σ}

theorem run_of_perform_ok
    (harguments : (Options.ofArguments arguments : Except Stop (Options K)) = .ok o)
    (h : (perform o : Session.Attempt σ (RunFault K) Unit).run.run w = (.ok (), w')) :
    (run K arguments : StateM (Session σ) UInt32).run w = (0, w') := by
  unfold run
  rw [harguments]
  show StateT.run ((perform o : Session.Attempt σ (RunFault K) Unit).run >>= _) w = _
  rw [StateT.run_bind, h]
  rfl

theorem run_of_perform_error {fault : RunFault K}
    (harguments : (Options.ofArguments arguments : Except Stop (Options K)) = .ok o)
    (h : (perform o : Session.Attempt σ (RunFault K) Unit).run.run w = (.error fault, w')) :
    ∃ w'', w'.LeadsTo w'.storage [] w'' ∧
      (run K arguments : StateM (Session σ) UInt32).run w = (1, w'') := by
  refine ⟨_, Session.leadsTo_forM_warn (faultLines fault.causes) w', ?_⟩
  unfold run
  rw [harguments]
  show StateT.run ((perform o : Session.Attempt σ (RunFault K) Unit).run >>= _) w = _
  rw [StateT.run_bind, h]
  rfl

/-- A run that is well set out takes the steps that were asked for, each once and in ascending
order, up to the first one that fails.  If one fails, the pictures of those before it are written
and nothing else, and the exit code is one.  If none fails, all pictures are written and, where it
is wanted, a document from which one summary for each of them is read. -/
theorem run_takes_selected {s : Settings K} {verbose : Bool}
    (harguments : (Options.ofArguments arguments : Except Stop (Options K)) = .ok o)
    (hsetOut : (setOut o : Session.Attempt σ (RunFault K) (Settings K × Bool)).run.run w =
      (.ok (s, verbose), w')) :
    (∀ step, step ∈ Step.selected o.only ↔ o.only = [] ∨ step ∈ o.only) ∧
    (Step.selected o.only).Pairwise (fun a b => a.number < b.number) ∧
    ∃ code w'', (run K arguments : StateM (Session σ) UInt32).run w = (code, w'') ∧
      ((∃ done failed rest summaries last fault,
          Step.selected o.only = done ++ failed :: rest ∧
          Takes s w'.words w'.storage done summaries last ∧
          Fails s w'.words last failed fault ∧ code = 1 ∧
          w'.LeadsTo last (summaries.flatMap (summaryLines verbose)) w'') ∨
        ∃ summaries all last lines,
          Takes s w'.words w'.storage (Step.selected o.only) summaries all ∧
          summaries.map Summary.output =
            (Step.selected o.only).map (fun step => s.picture step.number) ∧
          Ends summaries all o.summary code lines last ∧
          w'.LeadsTo last (summaries.flatMap (summaryLines verbose) ++ lines) w'') := by
  refine ⟨fun _ => Step.mem_selected, Step.pairwise_selected _, ?_⟩
  have hperform := run_bind_of_ok hsetOut (f := fun settled => do
    let summaries ← takeSteps settled.1 settled.2 (Step.selected o.only)
    windUp o.summary summaries)
  rw [← perform_eq] at hperform
  obtain ⟨summaries, all, w₁, htakes, hsteps, hrun⟩ |
    ⟨done, failed, rest, summaries, last, fault, w₁, hsplit, htakes, hfails, hsteps, hrun⟩ :=
    takeSteps_cases s verbose (Step.selected o.only) w'
  · rw [run_bind_of_ok hrun] at hperform
    have houtput := htakes.map_output
    obtain ⟨lines, last, w₂, hends, hlast, hwindUp⟩ | ⟨fault, hends, hwindUp⟩ :=
      windUp_cases (K := K) o.summary summaries w₁
    · rw [hsteps.storage] at hends
      exact ⟨0, w₂, run_of_perform_ok harguments (hperform.trans hwindUp),
        .inr ⟨summaries, all, last, lines, htakes, houtput, hends, hsteps.trans hlast⟩⟩
    · obtain ⟨w₂, hwarns, hcode⟩ := run_of_perform_error harguments (hperform.trans hwindUp)
      rw [hsteps.storage] at hends hwarns
      exact ⟨1, w₂, hcode,
        .inr ⟨summaries, all, all, [], htakes, houtput, hends, hsteps.trans hwarns⟩⟩
  · rw [run_bind_of_error hrun] at hperform
    obtain ⟨w₂, hwarns, hcode⟩ := run_of_perform_error harguments hperform
    rw [hsteps.storage] at hwarns
    refine ⟨1, w₂, hcode, .inl ⟨done, failed, rest, summaries, last, fault, hsplit, htakes, hfails,
      rfl, ?_⟩⟩
    rw [← List.append_nil (summaries.flatMap _)]
    exact hsteps.trans hwarns

section Examples

/-- What they give plays no part here: the picture that is written asks for no angle, and the other
one is refused. -/
local instance fromAbove : Transcendental ℚ := Mesh.atZero

/-- A square of one cell in a mesh file. -/
def squareText : String :=
  "$MeshFormat\n2.2 0 8\n$EndMeshFormat\n" ++
  "$Nodes\n4\n1 0 0 0\n2 1 0 0\n3 1 1 0\n4 0 1 0\n$EndNodes\n" ++
  "$Elements\n1\n1 3 2 0 0 1 2 3 4\n$EndElements\n"

/-- There is a mesh file, and a directory where the picture of the fifth step is to go. -/
def obstructed : Disk :=
  { root := .directory [("untitled.msh", .file squareText.toUTF8.toList), ("grid-5.eps", .empty)] }

/-- What comes of setting out there. -/
def begun (o : Options ℚ) : Except (RunFault ℚ) (Settings ℚ × Bool) × Session Disk :=
  (setOut o : Session.Attempt Disk (RunFault ℚ) (Settings ℚ × Bool)).run.run
    { storage := obstructed }

/-- What comes of a whole run there. -/
def finished (arguments : List String) : UInt32 × Session Disk :=
  (run ℚ arguments : StateM (Session Disk) UInt32).run { storage := obstructed }

theorem exists_begun_eq (o : Options ℚ) (h : (begun o).1.isOk = true) :
    ∃ s verbose, (begun o).1 = .ok (s, verbose) ∧
      (setOut o : Session.Attempt Disk (RunFault ℚ) (Settings ℚ × Bool)).run.run
        { storage := obstructed } = (.ok (s, verbose), (begun o).2) := by
  cases hsettled : (begun o).1 with
  | error fault =>
    rw [hsettled] at h
    cases h
  | ok settled => exact ⟨settled.1, settled.2, rfl, Prod.ext hsettled rfl⟩

theorem le_length_summaryLines (verbose : Bool) (s : Summary) :
    6 ≤ (summaryLines verbose s).length := by
  simp [summaryLines, Summary.lines]

def fifthStepFirst : List String := ["--only=5", "--only", "1", "--only", "5", "--summary=t.json"]

def fifthAndFirst : Options ℚ :=
  { only := [.bending, .loading, .bending], summary := some "t.json" }

def firstStepOnly : List String := ["--only=1", "--summary", "t.json"]

def firstOnly : Options ℚ := { only := [.loading], summary := some "t.json" }

/-- A run that writes its first picture and then fails, and one that succeeds.  Only the second one
writes a summary. -/
theorem run_takes_selected_obstructed :
    (∃ (s : Settings ℚ) (verbose : Bool) (summaries : List Summary) (fault : StepFault ℚ),
      Options.ofArguments fifthStepFirst = .ok fifthAndFirst ∧
      (begun fifthAndFirst).1 = .ok (s, verbose) ∧
      Step.selected fifthAndFirst.only = [.loading, .bending] ∧
      (finished fifthStepFirst).1 = 1 ∧
      Takes s (begun fifthAndFirst).2.words (begun fifthAndFirst).2.storage [.loading] summaries
        (finished fifthStepFirst).2.storage ∧
      Fails s (begun fifthAndFirst).2.words (finished fifthStepFirst).2.storage .bending fault ∧
      (finished fifthStepFirst).2.storage.files = ["untitled.msh", "grid-1.eps"]) ∧
    ∃ (s : Settings ℚ) (verbose : Bool) (all : Disk) (summary : Summary) (text : String),
      Options.ofArguments firstStepOnly = .ok firstOnly ∧
      (begun firstOnly).1 = .ok (s, verbose) ∧
      Step.selected firstOnly.only = [.loading] ∧
      (finished firstStepOnly).1 = 0 ∧
      Takes s (begun firstOnly).2.words (begun firstOnly).2.storage [.loading] [summary] all ∧
      summary.output = s.picture 1 ∧
      Summary.ofText? text = some [summary] ∧
      Storage.create all "t.json" text = .ok (finished firstStepOnly).2.storage ∧
      (finished firstStepOnly).2.storage.files = ["untitled.msh", "grid-1.eps", "t.json"] := by
  constructor
  · obtain ⟨s, verbose, hsettled, hsetOut⟩ :=
      exists_begun_eq fifthAndFirst (by decide +kernel)
    have harguments : Options.ofArguments fifthStepFirst = .ok fifthAndFirst := rfl
    have hselected : Step.selected fifthAndFirst.only = [.loading, .bending] := rfl
    have hbefore : (begun fifthAndFirst).2.storage.files = ["untitled.msh"] := by decide +kernel
    have hafter : (finished fifthStepFirst).1 = 1 ∧
        (finished fifthStepFirst).2.storage.files = ["untitled.msh", "grid-1.eps"] ∧
        (finished fifthStepFirst).2.said.length =
          (begun fifthAndFirst).2.said.length + 6 := by decide +kernel
    obtain ⟨-, -, code, w', hrun, hcases⟩ := run_takes_selected harguments hsetOut
    have hrun : finished fifthStepFirst = (code, w') := hrun
    rw [hselected] at hcases
    rw [hrun] at hafter ⊢
    obtain ⟨hcode, hfiles, hsaid⟩ := hafter
    obtain ⟨done, failed, rest, summaries, last, fault, hsplit, htakes, hfails, -, hleads⟩ |
      ⟨summaries, all, last, lines, -, houtput, -, hleads⟩ := hcases
    · obtain rfl := hleads.storage
      rcases done with _ | ⟨first, _ | ⟨second, done⟩⟩
      · rw [htakes.eq_of_nil, hbefore] at hfiles
        exact absurd hfiles (by decide)
      · simp only [List.cons_append, List.nil_append, List.cons.injEq] at hsplit
        obtain ⟨rfl, rfl, -⟩ := hsplit
        exact ⟨s, verbose, summaries, fault, harguments, hsettled, hselected, hcode, htakes, hfails,
          hfiles⟩
      · simp at hsplit
    · obtain ⟨a, b, rfl⟩ : ∃ a b, summaries = [a, b] :=
        List.length_eq_two.mp (by simpa using congrArg List.length houtput)
      have ha := le_length_summaryLines verbose a
      have hb := le_length_summaryLines verbose b
      rw [hleads.said] at hsaid
      simp only [List.flatMap_cons, List.flatMap_nil, List.append_nil, List.length_append] at hsaid
      omega
  · obtain ⟨s, verbose, hsettled, hsetOut⟩ :=
      exists_begun_eq firstOnly (by decide +kernel)
    have harguments : Options.ofArguments firstStepOnly = .ok firstOnly := rfl
    have hselected : Step.selected firstOnly.only = [.loading] := rfl
    have hafter : (finished firstStepOnly).1 = 0 ∧
        (finished firstStepOnly).2.storage.files = ["untitled.msh", "grid-1.eps", "t.json"] := by
      decide +kernel
    obtain ⟨-, -, code, w', hrun, hcases⟩ := run_takes_selected harguments hsetOut
    have hrun : finished firstStepOnly = (code, w') := hrun
    have hother : (1 : UInt32) ≠ 0 := by decide
    rw [hselected] at hcases
    rw [hrun] at hafter ⊢
    obtain ⟨hcode, hfiles⟩ := hafter
    obtain ⟨-, -, -, -, -, -, -, -, -, rfl, -⟩ |
      ⟨summaries, all, last, lines, htakes, houtput, hends, hleads⟩ := hcases
    · exact absurd hcode hother
    · obtain ⟨summary, rfl⟩ : ∃ a, summaries = [a] :=
        List.length_eq_one_iff.mp (by simpa using congrArg List.length houtput)
      obtain rfl := hleads.storage
      cases hends with
      | summarized holds writes =>
        exact ⟨s, verbose, all, summary, _, harguments, hsettled, hselected, hcode, htakes,
          (List.cons.inj houtput).1, holds, writes, hfiles⟩
      | refused => exact absurd hcode hother

end Examples

end Command
end HexMesh
