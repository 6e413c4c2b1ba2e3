import SettingsBinding.Commands.Pass
import SettingsBinding.Proofs.Commands.Inputs
import SettingsBinding.Proofs.Commands.Output
import SettingsBinding.Proofs.Commands.Writable

/-!
The commands that run a pass. Both of them load the inputs first and then merge the documents; a
fault ends them before anything is written. What they answer behind that is a matter of how the pass
ends.
-/

namespace SettingsBinding

namespace Outcome

def exitCode : Outcome → ExitCode
  | failed _ _ => .mismatch
  | _ => .success

/-- What becomes of the files where a pass ends so: the text that is generated is delivered, and
else nothing changes. -/
def Leaves (t u : FileTree) (directory : Location) (output : Option Path) : Outcome → Prop
  | generated _ text => t.Delivers u directory output text
  | _ => u = t

end Outcome

namespace PassInput

variable {input : PassInput}

theorem exitCode_report (input : PassInput) (merged : MergedSettings) :
    (input.report merged).exitCode = (input.outcome (input.report merged)).exitCode := by
  rw [CheckReport.exitCode, outcome]
  split
  · cases input.hostSource? with
    | none => rfl
    | some source => rfl
  · rfl

end PassInput

namespace Machine

variable {directory : Location} {t u : FileTree} {machine : Machine} {config : Config}
  {quiet : Bool} {model : Path} {settings : SettingsSelection} {form : CheckReport.Form}
  {output : Option Path} {input : PassInput} {fault : InputFault}

section

variable {α : Type} {next : PassInput → ExceptT ErrorTrail (StateM Machine) α}
  {result : Except ErrorTrail α} {context : String}

/-- A command that loads the inputs of a pass and then merges the documents reports the first fault
of the inputs. -/
theorem ends_of_fault (h : t.firstFault? directory config model settings = some fault)
    (hnext : ∀ input failure, PassInput.merge input = .error failure →
      Ends directory t (next input).run
        (.error ((ErrorTrail.ofFailure failure).within context)) t) :
    Ends directory t (PassInput.load config model settings >>= next).run
      (.error (fault.trail context)) t := by
  have hload := ends_loadInput directory t context config model settings
  cases hinput : t.passInput directory config model settings with
  | error found =>
      rw [FileTree.firstFault?_of_error hinput] at h
      rw [hinput] at hload
      cases h
      exact hload.bind_error
  | ok input =>
      rw [FileTree.firstFault?_of_ok hinput] at h
      rw [hinput] at hload
      obtain ⟨failure, hmerge, rfl⟩ := Option.map_eq_some_iff.1 h
      exact hload.bind_ok (hnext input failure (Steps.error?_eq_some_iff.1 hmerge))

theorem ends_of_input (h : t.passInput directory config model settings = .ok input)
    (hnext : Ends directory t (next input).run result u) :
    Ends directory t (PassInput.load config model settings >>= next).run result u := by
  have hload := ends_loadInput directory t "" config model settings
  rw [h] at hload
  exact hload.bind_ok hnext

end

theorem ends_runGenerate_of_fault
    (h : t.firstFault? directory config model settings = some fault) :
    Ends directory t (runGenerate config quiet model settings output).run
      (.error (fault.trail "Generation failed")) t := by
  apply ends_of_fault h
  intro input failure hmerge
  have hrun : input.run = .error failure := by
    rw [PassInput.run, PassInput.check, hmerge]
    rfl
  apply (ends_logAll directory t input.runEvents).lift.bind_ok
  rw [hrun]
  exact ends_pure directory t _

theorem ends_runCheck_of_fault
    (h : t.firstFault? directory config model settings = some fault) :
    Ends directory t (runCheck config quiet model settings form output).run
      (.error (fault.trail "Check failed")) t := by
  apply ends_of_fault h
  intro input failure hmerge
  have hcheck : input.check = .error failure := by
    rw [PassInput.check, hmerge]
    rfl
  apply (ends_logAll directory t input.checkEvents).lift.bind_ok
  rw [hcheck]
  exact ends_pure directory t _

theorem ends_runGenerate {outcome : Outcome}
    (hinput : machine.files.passInput machine.directory config model settings = .ok input)
    (hrun : input.run = .ok outcome) (houtput : ∀ p ∈ output, machine.CanWrite p) :
    ∃ u, Ends machine.directory machine.files
        (runGenerate config quiet model settings output).run (.ok outcome.exitCode) u ∧
      outcome.Leaves machine.files u machine.directory output := by
  have hlogged := ends_logAll machine.directory machine.files input.runEvents
  cases outcome with
  | generated name text =>
      obtain ⟨u, hwrite, hdelivers⟩ := ends_writeOutput houtput quiet text
      refine ⟨u, ends_of_input hinput (hlogged.lift.bind_ok ?_), hdelivers⟩
      rw [hrun]
      exact hwrite.bind_ok (ends_pure _ u _)
  | skipped =>
      refine ⟨machine.files, ends_of_input hinput (hlogged.lift.bind_ok ?_), rfl⟩
      rw [hrun]
      exact ends_pure _ _ _
  | failed diagnostic mismatches =>
      refine ⟨machine.files, ends_of_input hinput (hlogged.lift.bind_ok ?_), rfl⟩
      rw [hrun]
      apply (ends_say _ _ (.errorLine diagnostic.line)).lift.bind_ok
      -- The mismatches behind the diagnostic are for the console, too.
      cases quiet with
      | true => exact ends_pure _ _ _
      | false =>
          have hlines : ∀ mismatch : Mismatch, Ends machine.directory machine.files
              (MonadMachine.printError ("  - " ++ mismatch.message)) () machine.files :=
            fun mismatch => ends_say _ _ (.errorLine ("  - " ++ mismatch.message))
          exact (ends_forM hlines mismatches).lift.bind_ok (ends_pure _ _ _)

theorem ends_runCheck {merged : MergedSettings}
    (hinput : machine.files.passInput machine.directory config model settings = .ok input)
    (hmerge : input.merge = .ok merged) (houtput : ∀ p ∈ output, machine.CanWrite p) :
    ∃ u, Ends machine.directory machine.files
      (runCheck config quiet model settings form output).run
      (.ok (input.report merged).exitCode) u := by
  obtain ⟨u, hwrite, -⟩ := ends_writeOutput houtput quiet ((input.report merged).content form)
  have hlogged := ends_logAll machine.directory machine.files input.checkEvents
  refine ⟨u, ends_of_input hinput (hlogged.lift.bind_ok ?_)⟩
  rw [PassInput.check, hmerge]
  exact hwrite.bind_ok (ends_pure _ u _)

section

variable {generated checked : Except ErrorTrail ExitCode × Machine}
  (hgenerated : machine.execute (runGenerate config quiet model settings output) = generated)
  (hchecked : machine.execute (runCheck config quiet model settings form output) = checked)

include hgenerated hchecked

/-- The first fault of the inputs is the error of both commands, and neither writes anything. -/
theorem both_report (fault : InputFault)
    (h : machine.files.firstFault? machine.directory config model settings = some fault) :
    generated.1 = .error (fault.trail "Generation failed") ∧
      checked.1 = .error (fault.trail "Check failed") ∧
      generated.2.files = machine.files ∧ checked.2.files = machine.files := by
  subst hgenerated hchecked
  exact ⟨(ends_runGenerate_of_fault h).run.1, (ends_runCheck_of_fault h).run.1,
    (ends_runGenerate_of_fault h).run.2, (ends_runCheck_of_fault h).run.2⟩

/-- Without a fault both commands answer what the outcome of the pass stands for. -/
theorem both_answer (houtput : ∀ p ∈ output, machine.CanWrite p)
    (h : machine.files.firstFault? machine.directory config model settings = none) :
    ∃ program documents outcome,
      machine.files.program machine.directory model = .ok program ∧
      machine.files.documents machine.directory config.settingsFileName settings =
        .ok documents ∧
      PassInput.run ⟨config, fun _ => false, documents, program.types⟩ = .ok outcome ∧
      generated.1 = .ok outcome.exitCode ∧ checked.1 = .ok outcome.exitCode ∧
      outcome.Leaves machine.files generated.2.files machine.directory output := by
  subst hgenerated hchecked
  obtain ⟨input, merged, hinput, hmerge⟩ := FileTree.exists_merge_of_no_fault h
  have hrun : input.run = .ok (input.outcome (input.report merged)) := by
    rw [PassInput.run, PassInput.check, hmerge]
    rfl
  obtain ⟨u, hgenerate, hleaves⟩ := ends_runGenerate hinput hrun houtput
  obtain ⟨v, hcheck⟩ := ends_runCheck hinput hmerge houtput
  obtain ⟨program, documents, hprogram, hdocuments, -, rfl⟩ :=
    FileTree.passInput_eq_ok_iff.1 hinput
  refine ⟨program, documents, _, hprogram, hdocuments, hrun, hgenerate.run.1, ?_, ?_⟩
  · rw [← PassInput.exitCode_report]
    exact hcheck.run.1
  · rw [execute, hgenerate.run.2]
    exact hleaves

/-- The two commands agree: they fail together and answer the same otherwise. The first fault of the
inputs is the error of both, and then nothing is written. Without a fault they answer as the pass
ends; and where it generates something, that is all that is written for it. -/
theorem generate_agrees_with_check (houtput : ∀ p ∈ output, machine.CanWrite p) :
    ((∃ trail, generated.1 = .error trail) ↔ ∃ trail, checked.1 = .error trail) ∧
    (∀ code, generated.1 = .ok code ↔ checked.1 = .ok code) ∧
    (∀ code, generated.1 = .ok code → code = .mismatch ∨ code = .success) ∧
    (∀ fault, machine.files.firstFault? machine.directory config model settings = some fault →
      generated.1 = .error (fault.trail "Generation failed") ∧
      checked.1 = .error (fault.trail "Check failed") ∧
      generated.2.files = machine.files ∧ checked.2.files = machine.files) ∧
    (machine.files.firstFault? machine.directory config model settings = none →
      ∃ program documents outcome,
        machine.files.program machine.directory model = .ok program ∧
        machine.files.documents machine.directory config.settingsFileName settings =
          .ok documents ∧
        PassInput.run ⟨config, fun _ => false, documents, program.types⟩ = .ok outcome ∧
        generated.1 = .ok outcome.exitCode ∧ checked.1 = .ok outcome.exitCode ∧
        outcome.Leaves machine.files generated.2.files machine.directory output) := by
  have hreport := both_report hgenerated hchecked
  have hanswer := both_answer hgenerated hchecked houtput
  refine ⟨?_, ?_, ?_, hreport, hanswer⟩
  -- The first fault, or its absence, tells what both commands end with.
  all_goals
    cases hfault : machine.files.firstFault? machine.directory config model settings with
    | some fault =>
        obtain ⟨hgenerate, hcheck, -⟩ := hreport fault hfault
        simp [hgenerate, hcheck]
    | none =>
        obtain ⟨program, documents, outcome, -, -, -, hgenerate, hcheck, -⟩ := hanswer hfault
        cases outcome <;> simp [hgenerate, hcheck, Outcome.exitCode]

end

/-! ### A machine with a model and a directory of settings -/

/-- A model document with the host class, of which it gives the name only. -/
def hostModelText : String :=
  "\x7b\"syntax_trees\": [\x7b\"types\": [\x7b\"name\": \"HostConfiguration\"\x7d]\x7d]\x7d"

def hostMachine : Machine where
  files := {
    entries := [
      (["model.json"], .text hostModelText),
      (["web"], .directory), (["web", "AppSettings.json"], .text (Json.object []).compact)]
    nodup := by decide }

def webSettings : SettingsSelection := { directory := some ⟨"web"⟩ }

/-- An output two directories deep, neither of which is there. -/
def hostOutput : Option Path := some ⟨"obj/host/Host.cs"⟩

def hostGenerated (model : String) : Except ErrorTrail ExitCode × Machine :=
  hostMachine.execute (runGenerate {} true ⟨model⟩ webSettings hostOutput)

def hostChecked (model : String) : Except ErrorTrail ExitCode × Machine :=
  hostMachine.execute (runCheck {} true ⟨model⟩ webSettings .json hostOutput)

theorem canWrite_hostOutput : ∀ p ∈ hostOutput, hostMachine.CanWrite p := by
  intro p hp
  cases hp
  have habove : ∀ k ∈ ["obj", "host", "Host.cs"].inits,
      hostMachine.files.get? k = none ∨ hostMachine.files.get? k = some .directory := by
    decide
  have hadmits : hostMachine.files.Admits [] ["obj", "host", "Host.cs"] :=
    ⟨fun k hk _ => habove k ((List.mem_inits _ _).2 hk), rfl⟩
  have hpath : (⟨"obj/host/Host.cs"⟩ : Path) = .ofNames false ["obj", "host", "Host.cs"] := by
    decide +kernel
  have hnames : ∀ name ∈ ["obj", "host", "Host.cs"], Path.IsName name := by
    decide +kernel
  rw [hpath]
  exact (canWrite_ofNames_iff hnames (List.cons_ne_nil _ _) rfl).2 hadmits

/-- The source of the host class is written, and so the directories above it are made. A model that
is not there is reported by both commands, and nothing is written. -/
theorem generate_agrees_with_check_on_host :
    (hostGenerated "model.json").1 = .ok .success ∧ (hostChecked "model.json").1 = .ok .success ∧
      (∃ text, hostMachine.files.Holds (hostGenerated "model.json").2.files []
        ⟨"obj/host/Host.cs"⟩ text) ∧
      ((hostGenerated "none.json").1.isOk = false ∧ (hostChecked "none.json").1.isOk = false ∧
        (hostGenerated "none.json").2.files = hostMachine.files) := by
  have hsound : hostMachine.files.firstFault? [] {} ⟨"model.json"⟩ webSettings = none := by
    decide +kernel
  have hmissing : hostMachine.files.firstFault? [] {} ⟨"none.json"⟩ webSettings =
      some (.model ⟨"none.json"⟩ (.ofFile ⟨"none.json"⟩ .missing)) := rfl
  have hsource : ((hostMachine.files.passInput [] {} ⟨"model.json"⟩ webSettings).toOption.bind
      fun input => input.run.toOption.bind Outcome.sourceName?) = some "Host.cs" := by
    decide +kernel
  have hgenerated (model : String) :
      hostMachine.execute (runGenerate {} true ⟨model⟩ webSettings hostOutput) =
        hostGenerated model := rfl
  have hchecked (model : String) :
      hostMachine.execute (runCheck {} true ⟨model⟩ webSettings .json hostOutput) =
        hostChecked model := rfl
  obtain ⟨-, -, -, -, hanswer⟩ := generate_agrees_with_check (hgenerated "model.json")
    (hchecked "model.json") canWrite_hostOutput
  obtain ⟨-, -, -, hreport, -⟩ := generate_agrees_with_check (hgenerated "none.json")
    (hchecked "none.json") canWrite_hostOutput
  obtain ⟨hreported, hreported', hkept, -⟩ := hreport _ hmissing
  obtain ⟨program, documents, outcome, hprogram, hdocuments, hrun, hanswered, hanswered',
    hleaves⟩ := hanswer hsound
  -- The outcome is that of the inputs that were evaluated, so it is known by its name.
  have hinput : hostMachine.files.passInput [] {} ⟨"model.json"⟩ webSettings =
      .ok ⟨{}, fun _ => false, documents, program.types⟩ :=
    FileTree.passInput_eq_ok_iff.2 ⟨program, documents, hprogram, hdocuments, rfl, rfl⟩
  rw [hinput, Except.toOption, Option.bind_some, hrun, Except.toOption, Option.bind_some] at hsource
  cases outcome with
  | generated name text =>
      refine ⟨hanswered, hanswered', ⟨text, hleaves⟩, ?_, ?_, hkept⟩
      · rw [hreported]
        rfl
      · rw [hreported']
        rfl
  | _ => cases hsource

end Machine

end SettingsBinding
