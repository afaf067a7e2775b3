import EndpointPayload.CommandLine.Run
import EndpointPayload.Proofs.CommandLine.Arguments

/-!
# Which wishes reach a forecast

A run checks its settings once and puts the options of the command on them after that.  The settings
of a run that goes on are fine, whether they come from a file, from the environment, from options
that hold for every command or from nowhere.  Of what a command adds, only the number of fields to
keep is under a check, and none is made of it any more: it may be zero.

`Invocation.call?` is all that a run does before it asks for a forecast.  It looks at files and
at the environment only, so a run that fails there has asked no store and no model.
-/

namespace EndpointPayload

/-- What the check of the settings asks of the wishes for a forecast. -/
structure ForecastOptions.IsFine (o : ForecastOptions) : Prop where
  sampleSize_pos : 1 ≤ o.sampleSize
  limitFields_ne_zero : o.limitFields ≠ some 0

/-- A fine wish stays so unless the command wants no field at all. -/
theorem PredictArguments.isFine_options_iff
    {a : PredictArguments}
    {s : ForecastSettings}
    (h : s.options.IsFine) :
    (a.options s).IsFine ↔ a.limitFields ≠ some 0 := by
  have hlimit : (a.options s).limitFields = a.limitFields.or s.options.limitFields := rfl
  constructor
  · intro hfine hzero
    rw [hzero, Option.some_or] at hlimit
    exact hfine.limitFields_ne_zero hlimit
  · intro hwanted
    refine ⟨h.sampleSize_pos, ?_⟩
    rw [hlimit]
    cases hgiven : a.limitFields with
    | none => exact h.limitFields_ne_zero
    | some n =>
        rw [hgiven] at hwanted
        exact hwanted

namespace Settings

variable {s : Settings} {e : Failure}

/-- All faults of settings are faults of the configuration. -/
theorem exists_config_of_validate (h : s.validate = .error e) : ∃ text, e = .config text := by
  unfold validate at h
  repeat' split at h
  all_goals cases h
  all_goals exact ⟨_, rfl⟩

theorem isFine_options_of_validate {u : Unit} (h : s.validate = .ok u) :
    s.forecast.options.IsFine := by
  unfold validate at h
  split at h
  · cases h
  · rename_i hsample
    split at h
    · cases h
    · rename_i hlimit
      exact ⟨Nat.one_le_iff_ne_zero.mpr hsample, hlimit⟩

end Settings

/-- What a forecast is made from. -/
structure ForecastCall where
  project : Project
  context : Option HandlerContext
  route : Route
  options : ForecastOptions

namespace ForecastCall

/-- The forecast, or the record of it that a snapshot is. -/
def answer (c : ForecastCall) (host : Host) (snapshot : Bool) : Except RunFailure Json :=
  let session :=
    Forecast.ofRoute (c.project.predictor host) c.context host.now c.route c.options
  match c.project.query host session with
  | .error e => .error e
  | .ok (.error e) => .error (.failed e)
  | .ok (.ok f) =>
    if snapshot then
      .ok (.obj [
        ("snapshot", (Snapshot.make c.route c.context (some f)).jsonAt host.now),
        ("payload", .obj f.body)])
    else .ok f.json

end ForecastCall

namespace Invocation

variable {i : Invocation} {a : PredictArguments} {host other : Host}

/-- What a command for a forecast does before it asks for one. -/
def call? (i : Invocation) (a : PredictArguments) (host : Host) :
    Except RunFailure ForecastCall := do
  let project ← Project.load host i.options
  let route ← project.route host a.toRouteArguments
  .ok ⟨project, HandlerContext.ofRoute? host.files route, route,
    a.options project.settings.forecast⟩

/-- A run for a forecast is the call and its answer. -/
theorem run_eq_answer (ha : i.command = .predict a) :
    i.run host = (i.call? a host).bind fun c => c.answer host a.snapshot := by
  unfold run call?
  rw [ha]
  cases Project.load host i.options with
  | error f => rfl
  | ok project =>
      change project.run host (.predict a) = _
      cases hroute : project.route host a.toRouteArguments with
      | error f => simp only [Project.run, hroute, bind, Except.bind]
      | ok route =>
          simp only [Project.run, Project.forecast, ForecastCall.answer, hroute, bind, Except.bind]
          rcases project.query host (Forecast.ofRoute (project.predictor host)
            (HandlerContext.ofRoute? host.files route) host.now route
            (a.options project.settings.forecast)) with e | e | f <;> rfl

end Invocation

/-- Another host with the same files and variables; its store and its model may be any. -/
structure Host.Agrees (host other : Host) : Prop where
  files_eq : other.files = host.files
  environment_eq : other.environment = host.environment

namespace Project

variable {host other : Host} {o : GlobalOptions} {p : Project}

theorem settingsOf_congr (h : host.Agrees other) : settingsOf other o = settingsOf host o := by
  rw [settingsOf, settingsOf, h.files_eq, h.environment_eq]

theorem load_congr (h : host.Agrees other) : load other o = load host o := by
  rw [load, load, settingsOf_congr h]

theorem route_congr (h : host.Agrees other) (a : RouteArguments) :
    p.route other a = p.route host a := by
  rw [route, route, route?, route?, workspace, workspace, h.files_eq]

/-- A project has the settings of its run, and they have passed the check. -/
theorem validate_of_load (h : load host o = .ok p) :
    p.settings = settingsOf host o ∧ ∃ u, p.settings.validate = .ok u := by
  unfold load at h
  dsimp only at h
  split at h
  · rename_i u hvalid
    cases h
    exact ⟨rfl, u, hvalid⟩
  · cases h

theorem load_eq_error_iff {f : RunFailure} :
    load host o = .error f ↔ ∃ e, (settingsOf host o).validate = .error e ∧ f = .settings e := by
  unfold load
  dsimp only
  split
  · rename_i u hvalid
    simp [hvalid]
  · rename_i e hfault
    simp [hfault, eq_comm]

/-- A route that is not found is no fault of the settings. -/
theorem route_ne_settings {a : RouteArguments} {e : Failure} :
    p.route host a ≠ .error (.settings e) := by
  intro h
  unfold route route? at h
  cases hfind : (p.workspace host).find? a.method a.path with
  | error cause =>
      rw [hfind] at h
      cases h
  | ok found =>
      rw [hfind] at h
      cases found with
      | some r => cases h
      | none =>
          dsimp only [bind, Except.bind] at h
          split at h
          · cases h
          · cases h

end Project

namespace Invocation

variable {i : Invocation} {a : PredictArguments} {host other : Host} {c : ForecastCall}

theorem call?_congr (h : host.Agrees other) : i.call? a other = i.call? a host := by
  rw [call?, call?, Project.load_congr h, h.files_eq]
  exact congrArg _ (funext fun p => by rw [Project.route_congr h])

theorem isFine_of_call? (h : i.call? a host = .ok c) :
    c.options.IsFine ↔ a.limitFields ≠ some 0 := by
  obtain ⟨p, hload, h⟩ := exists_of_bind_eq_ok h
  obtain ⟨route, -, h⟩ := exists_of_bind_eq_ok h
  cases h
  obtain ⟨-, u, hvalid⟩ := Project.validate_of_load hload
  exact PredictArguments.isFine_options_iff (Settings.isFine_options_of_validate hvalid)

/-- A run fails for its settings exactly if they do not pass the check. -/
theorem call?_eq_settings_iff {e : Failure} :
    i.call? a host = .error (.settings e) ↔
      (Project.settingsOf host i.options).validate = .error e := by
  unfold call?
  cases hload : Project.load host i.options with
  | error f =>
      obtain ⟨e', hfault, rfl⟩ := Project.load_eq_error_iff.mp hload
      rw [hfault]
      change Except.error (RunFailure.settings e') = _ ↔ _
      simp
  | ok p =>
      obtain ⟨hsettings, u, hvalid⟩ := Project.validate_of_load hload
      rw [← hsettings, hvalid]
      refine iff_of_false (fun h => ?_) (by simp)
      change (p.route host a.toRouteArguments).bind _ = _ at h
      cases hroute : p.route host a.toRouteArguments with
      | error f =>
          rw [hroute] at h
          cases h
          exact Project.route_ne_settings hroute
      | ok route =>
          rw [hroute] at h
          cases h

/-- A run for a forecast is the answer to a call, and all before the call is the same for every
store and every model.  The wishes of a call are fine exactly if the command does not say to keep no
field at all, and it does not where no argument names that option.  Settings with wishes that are
not fine do not pass the check, and where they do not pass the run fails for a fault of the
configuration, whatever its store and its model are; it fails so only there. -/
theorem run_of_predict (ha : i.command = .predict a) :
    i.run host = (i.call? a host).bind (fun c => c.answer host a.snapshot) ∧
    (∀ other, host.Agrees other → i.call? a other = i.call? a host) ∧
    (∀ c, i.call? a host = .ok c → (c.options.IsFine ↔ a.limitFields ≠ some 0)) ∧
    (∀ args, read args = .ok i →
      (∀ argument ∈ args, ¬ ArgumentRules.Names "limit-fields" argument) →
        a.limitFields ≠ some 0) ∧
    (¬ (Project.settingsOf host i.options).forecast.options.IsFine →
      ∃ text, (Project.settingsOf host i.options).validate = .error (.config text)) ∧
    (∀ e, (Project.settingsOf host i.options).validate = .error e →
      (∃ text, e = .config text) ∧
        ∀ other, host.Agrees other → i.run other = .error (.settings e)) ∧
    ∀ e, i.call? a host = .error (.settings e) →
      (Project.settingsOf host i.options).validate = .error e := by
  refine ⟨run_eq_answer ha, fun other => call?_congr, fun c => isFine_of_call?,
    fun args hread hargs => ?_, fun hwrong => ?_, fun e hfault => ⟨?_, fun other hother => ?_⟩,
    fun e => call?_eq_settings_iff.mp⟩
  · rw [limitFields_of_read hargs hread ha]
    exact nofun
  · cases hcheck : (Project.settingsOf host i.options).validate with
    | ok u => exact absurd (Settings.isFine_options_of_validate hcheck) hwrong
    | error e =>
        obtain ⟨text, rfl⟩ := Settings.exists_config_of_validate hcheck
        exact ⟨text, rfl⟩
  · exact Settings.exists_config_of_validate hfault
  · rw [run_eq_answer ha, call?_congr hother, call?_eq_settings_iff.mpr hfault]
    rfl

namespace Orders

/-- A project with one route and a settings file, without a store and a model. -/
def machine (settings : String) : Host where
  files := ⟨.directory [
    ("app.js", .file (some "app.post('/x', h);")),
    ("routelens.toml", .file (some settings))], []⟩
  environment := fun _ => none
  now := ""
  connect := fun s => ⟨s.uri, none⟩
  complete := fun _ _ _ => .error (.completion "")

/-- The limits that a command and its call have, if the arguments are a command that comes to one.
-/
def limits? (settings : String) (args : List String) : Option (Option Nat × Nat × Option Nat) :=
  match read args with
  | .ok ⟨o, .predict a⟩ =>
    match call? ⟨o, .predict a⟩ a (machine settings) with
    | .ok c => some (a.limitFields, c.options.sampleSize, c.options.limitFields)
    | .error _ => none
  | _ => none

theorem exists_call
    {settings : String}
    {args : List String}
    {said kept : Option Nat}
    {sample : Nat}
    (h : limits? settings args = some (said, sample, kept)) :
    ∃ i a c, read args = .ok i ∧ i.command = .predict a ∧ i.call? a (machine settings) = .ok c ∧
      a.limitFields = said ∧ c.options.sampleSize = sample ∧ c.options.limitFields = kept := by
  unfold limits? at h
  split at h
  · rename_i o a hread
    split at h
    · rename_i c hcall
      cases h
      exact ⟨_, a, c, hread, rfl, hcall, rfl, rfl, rfl⟩
    · cases h
  · cases h

/-- The number of fields to keep that the settings state, if the arguments are a command for a
forecast. -/
def stated? (settings : String) (args : List String) : Option (Option Nat) :=
  match read args with
  | .ok ⟨o, .predict _⟩ => some (Project.settingsOf (machine settings) o).forecast.limitFields
  | _ => none

theorem exists_stated
    {settings : String}
    {args : List String}
    {stated : Option Nat}
    (h : stated? settings args = some stated) :
    ∃ i a, read args = .ok i ∧ i.command = .predict a ∧
      (Project.settingsOf (machine settings) i.options).forecast.limitFields = stated := by
  unfold stated? at h
  split at h
  · rename_i o a hread
    cases h
    exact ⟨_, a, hread, rfl, rfl⟩
  · cases h

theorem limits?_three :
    limits? "[prediction]\nsample_size = 5\n" ["predict", "POST", "/x", "--limit-fields", "3"] =
      some (some 3, 5, some 3) := by
  decide +kernel

theorem limits?_zero :
    limits? "" ["predict", "POST", "/x", "--limit-fields", "0"] = some (some 0, 20, some 0) := by
  decide +kernel

theorem stated?_zero :
    stated? "[prediction]\nlimit_fields = 0\n" ["predict", "POST", "/x"] = some (some 0) := by
  decide +kernel

end Orders

open Orders in
/-- Three fields are as fine on the command line as five documents are in the settings file.  No
field at all is refused where the settings file wants it. -/
theorem run_of_predict_orders :
    (∃ i a c, read ["predict", "POST", "/x", "--limit-fields", "3"] = .ok i ∧
      i.command = .predict a ∧
      i.call? a (machine "[prediction]\nsample_size = 5\n") = .ok c ∧ c.options.IsFine) ∧
    ∃ i text, read ["predict", "POST", "/x"] = .ok i ∧
      i.run (machine "[prediction]\nlimit_fields = 0\n") = .error (.settings (.config text)) := by
  constructor
  · obtain ⟨i, a, c, hread, ha, hcall, hsaid, -, -⟩ := exists_call limits?_three
    obtain ⟨-, -, hfine, -⟩ := run_of_predict ha
    exact ⟨i, a, c, hread, ha, hcall, (hfine c hcall).mpr (by rw [hsaid]; decide)⟩
  · obtain ⟨i, a, hread, ha, hstated⟩ := exists_stated stated?_zero
    obtain ⟨-, -, -, -, hwrong, hfails, -⟩ := run_of_predict ha
    obtain ⟨text, hfault⟩ := hwrong fun hfine => hfine.limitFields_ne_zero hstated
    exact ⟨i, text, hread, (hfails _ hfault).2 _ ⟨rfl, rfl⟩⟩

open Orders in
/-- No field at all reaches a forecast where the command line wants it. -/
theorem not_forall_isFine_of_call? :
    ¬ ∀ args i a host c, read args = .ok i → i.command = .predict a → i.call? a host = .ok c →
      c.options.IsFine := by
  intro h
  obtain ⟨i, a, c, hread, ha, hcall, -, -, hkept⟩ := exists_call limits?_zero
  exact (h _ i a _ c hread ha hcall).limitFields_ne_zero hkept

end Invocation
end EndpointPayload
