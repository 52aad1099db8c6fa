import SourcePrint.MapThread
import SourcePrint.Session

namespace SourcePrint

/-- The failure of a result. -/
def failure? {ε α : Type} : Except ε α → Option ε
  | .error error => some error
  | .ok _ => none

namespace Session

/-- What can be asked of a session. -/
inductive Call where
  | observe (observer : Option Nat)
  | configure (config : Config)
  | addExtension (extension : String) (language : Language)
  | source (language : Language) (sourceName text : String)
  | file (filename text : String)

namespace Call

def isObserve : Call → Bool
  | observe _ => true
  | _ => false

/-- What a call returns under given settings, if it returns anything. -/
def outcome? (config : Config) : Call → Option (Except ReportError Report)
  | source language sourceName text => some (Report.ofSource language sourceName text config)
  | file filename text => some (Report.ofFile filename text config)
  | _ => none

/-- What an observer is to be told of a call. The language of a file is told by itself, and the
outcome only if there is a language. -/
def events (config : Config) : Call → List Event
  | source language sourceName text =>
    [.fingerprint (failure? (Report.ofSource language sourceName text config))]
  | file filename text =>
    match config.languages.resolve filename with
    | .error error => [.resolve (some error)]
    | .ok _ => [.resolve none, .fingerprint (failure? (Report.ofFile filename text config))]
  | _ => []

end Call

/-- What a call is made under. -/
structure Setting where
  observer : Option Nat
  config : Config

namespace Setting

def change (setting : Setting) : Call → Setting
  | .observe observer => { setting with observer }
  | .configure config => { setting with config }
  | .addExtension extension language =>
    { setting with config :=
        { setting.config with languages := setting.config.languages.insert extension language } }
  | .source _ _ _ | .file _ _ => setting

/-- The calls of a run, each with what it is made under. -/
def timeline (setting : Setting) : List Call → List (Setting × Call)
  | [] => []
  | call :: calls => (setting, call) :: (setting.change call).timeline calls

/-- The entries of a journal for events that happen together. -/
def entries (setting : Setting) (events : List Event) : List (Nat × Event) :=
  setting.observer.toList.flatMap fun observer => events.map (observer, ·)

theorem entries_append (setting : Setting) (events more : List Event) :
    setting.entries (events ++ more) = setting.entries events ++ setting.entries more := by
  unfold entries
  cases setting.observer <;> simp

end Setting

def setting (session : Session) : Setting := ⟨session.observer, session.config⟩

def perform (session : Session) : Call → Option (Except ReportError Report) × Session
  | .observe observer => (none, session.observe observer)
  | .configure config => (none, session.configure config)
  | .addExtension extension language => (none, session.addExtension extension language)
  | .source language sourceName text =>
    let (session, result) := session.reportSource language sourceName text
    (some result, session)
  | .file filename text =>
    let (session, result) := session.reportFile filename text
    (some result, session)

/-- A session after some calls. -/
def after (session : Session) (calls : List Call) : Session :=
  calls.foldl (fun session call => (session.perform call).2) session

/-- What the calls return, in order. -/
def results (session : Session) (calls : List Call) : List (Except ReportError Report) :=
  (mapThread perform session calls).filterMap id

/-- All that an observer has been told. -/
def received (session : Session) (observer : Nat) : List Event :=
  session.journal.filterMap fun entry => if entry.1 = observer then some entry.2 else none

/-- Whoever is installed has been told of some events, and nothing was set. -/
structure Told (session : Session) (events : List Event) (next : Session) : Prop where
  setting : next.setting = session.setting
  journal : next.journal = session.journal ++ session.setting.entries events

theorem Told.trans {session middle next : Session} {events more : List Event}
    (h : session.Told events middle) (hmore : middle.Told more next) :
    session.Told (events ++ more) next where
  setting := hmore.setting.trans h.setting
  journal := by
    rw [hmore.journal, h.journal, h.setting, Setting.entries_append, List.append_assoc]

variable (session : Session)

theorem told_record (event : Event) : session.Told [event] (session.record event) := by
  obtain ⟨config, reports, observer, journal⟩ := session
  cases observer with
  | none => exact ⟨rfl, (List.append_nil _).symm⟩
  | some observer => exact ⟨rfl, rfl⟩

theorem told_nothing : session.Told [] session := ⟨rfl, by simp [Setting.entries]⟩

/-- A source is told of once, with what is returned. -/
theorem told_reportSource (language : Language) (sourceName text : String) :
    session.Told ((Call.source language sourceName text).events session.config)
        (session.reportSource language sourceName text).1 ∧
      (session.reportSource language sourceName text).2 =
        Report.ofSource language sourceName text session.config := by
  simp only [Call.events, reportSource]
  cases Report.ofSource language sourceName text session.config with
  | ok report =>
    obtain ⟨hsetting, hjournal⟩ := session.told_record (.fingerprint none)
    exact ⟨⟨hsetting, hjournal⟩, rfl⟩
  | error error => exact ⟨session.told_record (.fingerprint (some error)), rfl⟩

/-- A file is told of when its language is looked up, and a second time if there is one. -/
theorem told_reportFile (filename text : String) :
    session.Told ((Call.file filename text).events session.config)
        (session.reportFile filename text).1 ∧
      (session.reportFile filename text).2 = Report.ofFile filename text session.config := by
  simp only [Call.events, reportFile, Report.ofFile]
  cases session.config.languages.resolve filename with
  | error error => exact ⟨session.told_record (.resolve (some error)), rfl⟩
  | ok language =>
    have hfirst := session.told_record (.resolve none)
    have hconfig : (session.record (.resolve none)).config = session.config :=
      congrArg Setting.config hfirst.setting
    obtain ⟨htold, hresult⟩ :=
      (session.record (.resolve none)).told_reportSource language filename text
    rw [hconfig] at htold hresult
    exact ⟨hfirst.trans htold, hresult⟩

/-- One call: what is set, what is written down and what is returned. -/
theorem perform_spec (call : Call) :
    (session.perform call).2.setting = session.setting.change call ∧
      (session.perform call).2.journal =
        session.journal ++ session.setting.entries (call.events session.config) ∧
      (session.perform call).1 = call.outcome? session.config := by
  have hnothing := session.told_nothing.journal
  cases call with
  | observe observer => exact ⟨rfl, hnothing, rfl⟩
  | configure config => exact ⟨rfl, hnothing, rfl⟩
  | addExtension extension language => exact ⟨rfl, hnothing, rfl⟩
  | source language sourceName text =>
    obtain ⟨htold, hresult⟩ := session.told_reportSource language sourceName text
    exact ⟨htold.setting, htold.journal, congrArg some hresult⟩
  | file filename text =>
    obtain ⟨htold, hresult⟩ := session.told_reportFile filename text
    exact ⟨htold.setting, htold.journal, congrArg some hresult⟩

/-- The journal of a run has the entries of each call in turn, made for the observer of that time. -/
theorem journal_after (calls : List Call) :
    (session.after calls).journal = session.journal ++
      (session.setting.timeline calls).flatMap fun moment =>
        moment.1.entries (moment.2.events moment.1.config) := by
  induction calls generalizing session with
  | nil => exact (List.append_nil _).symm
  | cons call calls ih =>
    obtain ⟨hsetting, hjournal, -⟩ := session.perform_spec call
    have hrest := ih (session.perform call).2
    rw [hsetting, hjournal, List.append_assoc] at hrest
    exact hrest

theorem results_eq (calls : List Call) :
    session.results calls = (session.setting.timeline calls).filterMap fun moment =>
      moment.2.outcome? moment.1.config := by
  unfold results
  induction calls generalizing session with
  | nil => rfl
  | cons call calls ih =>
    obtain ⟨hsetting, -, hresult⟩ := session.perform_spec call
    rw [mapThread_cons, List.filterMap_cons, ih, hsetting, hresult, Setting.timeline,
      List.filterMap_cons]
    rfl

variable {session : Session} {observer : Nat} {calls : List Call}

theorem Setting.filterMap_entries (setting : Setting) (events : List Event) (observer : Nat) :
    (setting.entries events).filterMap
        (fun entry => if entry.1 = observer then some entry.2 else none) =
      if setting.observer = some observer then events else [] := by
  unfold entries
  cases setting.observer with
  | none => simp
  | some installed =>
    rw [Option.toList_some, List.flatMap_singleton, List.filterMap_map]
    by_cases h : installed = observer
    · have hall : (fun entry : Nat × Event => if entry.1 = observer then some entry.2 else none) ∘
          (fun event => (installed, event)) = some := funext fun event => if_pos h
      rw [hall, List.filterMap_some, h, if_pos rfl]
    · simp [h]

/-- An observer is told of the calls made while it is installed, and of nothing else. -/
theorem received_after (session : Session) (calls : List Call) (observer : Nat) :
    (session.after calls).received observer = session.received observer ++
      (session.setting.timeline calls).flatMap fun moment =>
        if moment.1.observer = some observer then moment.2.events moment.1.config else [] := by
  simp only [received, journal_after, List.filterMap_append, List.filterMap_flatMap,
    Setting.filterMap_entries]

theorem Setting.observer_ne_of_timeline {setting : Setting}
    (h : setting.observer ≠ some observer) (hcalls : Call.observe (some observer) ∉ calls) :
    ∀ moment ∈ setting.timeline calls, moment.1.observer ≠ some observer := by
  induction calls generalizing setting with
  | nil => exact nofun
  | cons call calls ih =>
    rw [List.mem_cons, not_or] at hcalls
    have hchange : (setting.change call).observer ≠ some observer := by
      cases call with
      | observe installed =>
        rintro rfl
        exact hcalls.1 rfl
      | configure => exact h
      | addExtension => exact h
      | source => exact h
      | file => exact h
    rw [timeline, List.forall_mem_cons]
    exact ⟨h, ih hchange hcalls.2⟩

/-- An observer that is not installed is told nothing. -/
theorem received_of_not_installed (h : session.observer ≠ some observer)
    (hcalls : Call.observe (some observer) ∉ calls) :
    (session.after calls).received observer = session.received observer := by
  have hothers := @Setting.observer_ne_of_timeline observer calls session.setting h hcalls
  rw [received_after, List.append_right_eq_self, List.flatMap_eq_nil_iff]
  exact fun moment hmoment => if_neg (hothers moment hmoment)

/-- The outcomes of a run are those of its other calls under the same settings. -/
theorem Setting.outcomes_eq (setting : Setting) (calls : List Call) :
    ((setting.timeline calls).filterMap fun moment => moment.2.outcome? moment.1.config) =
      ((Setting.mk none setting.config).timeline (calls.filter (!·.isObserve))).filterMap
        fun moment => moment.2.outcome? moment.1.config := by
  induction calls generalizing setting with
  | nil => rfl
  | cons call calls ih =>
    cases call with
    | observe observer => exact ih _
    | configure config => exact ih _
    | addExtension extension language => exact ih _
    | source language sourceName text => exact congrArg (_ :: ·) (ih _)
    | file filename text => exact congrArg (_ :: ·) (ih _)

/-- What a run tells and returns. An observer is told of the calls made while it is installed: of a
source once, with its outcome, and of a file by its language and then, if there is one, by its
outcome. Once another takes its place or none does, it is told nothing more. What the calls return
is the same whoever is installed, and when. -/
theorem observers_exact (session : Session) (calls : List Call) :
    (∀ observer, (session.after calls).received observer = session.received observer ++
      (session.setting.timeline calls).flatMap fun moment =>
        if moment.1.observer = some observer then moment.2.events moment.1.config else []) ∧
    session.results calls = ((session.setting.timeline calls).filterMap fun moment =>
      moment.2.outcome? moment.1.config) ∧
    (∀ observer next rest, next ≠ some observer → Call.observe (some observer) ∉ rest →
      (session.after (calls ++ .observe next :: rest)).received observer =
        (session.after calls).received observer) ∧
    ∀ (other : Session) (calls' : List Call), other.config = session.config →
      calls'.filter (!·.isObserve) = calls.filter (!·.isObserve) →
        other.results calls' = session.results calls := by
  refine ⟨session.received_after calls, session.results_eq calls, ?_, ?_⟩
  · intro observer next rest hnext hrest
    have hafter : session.after (calls ++ .observe next :: rest) =
        ((session.after calls).observe next).after rest := List.foldl_append
    rw [hafter]
    exact @received_of_not_installed ((session.after calls).observe next) observer rest hnext hrest
  · intro other calls' hconfig hcalls
    rw [results_eq, results_eq, Setting.outcomes_eq, Setting.outcomes_eq session.setting, hcalls]
    simp only [setting, hconfig]

theorem observers_exact_replaced :
    let calls : List Call := [.observe (some 1), .file "a.c" "x"]
    let rest : List Call := [.file "README" "x", .observe none, .source .cpp "s" "y"]
    let session : Session := {}
    let whole := calls ++ .observe (some 2) :: rest
    let requests : List Call := [.file "a.c" "x", .file "README" "x", .source .cpp "s" "y"]
    (session.after whole).received 1 = [.resolve none, .fingerprint none] ∧
      (session.after whole).received 2 = [.resolve (some (.unknownLanguage "README"))] ∧
      session.results whole = session.results requests := by
  intro calls rest session whole requests
  obtain ⟨hreceived, -, hreplaced, -⟩ := observers_exact session calls
  obtain ⟨hreceived', -, -, hresults⟩ := observers_exact session whole
  refine ⟨?_, ?_, (hresults session requests rfl rfl).symm⟩
  · rw [hreplaced 1 (some 2) rest (by decide) (by simp [rest]), hreceived]
    decide +kernel
  · rw [hreceived']
    decide +kernel

end Session

end SourcePrint
