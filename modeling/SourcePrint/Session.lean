import SourcePrint.Report

namespace SourcePrint

/-- What an observer is told, with the failure if there was one. -/
inductive Event where
  | resolve (failure : Option LexicalError)
  | fingerprint (failure : Option ReportError)
  deriving DecidableEq, Repr

/-- A run of requests under changing settings. -/
structure Session where
  config : Config := {}
  reports : List Report := []
  /-- The observer installed now. -/
  observer : Option Nat := none
  /-- Events with the observer that received them, oldest first. -/
  journal : List (Nat × Event) := []

namespace Session

/-- Tells the installed observer, if there is one. -/
def record (session : Session) (event : Event) : Session :=
  match session.observer with
  | some observer => { session with journal := session.journal ++ [(observer, event)] }
  | none => session

def observe (session : Session) (observer : Option Nat) : Session :=
  { session with observer := observer }

/-- Replaces the settings as they are, right or wrong. -/
def configure (session : Session) (config : Config) : Session := { session with config := config }

def addExtension (session : Session) (extension : String) (language : Language) : Session :=
  session.configure
    { session.config with languages := session.config.languages.insert extension language }

/-- Whether two of the reports kept so far, counted from zero, are clones. -/
def isClone? (session : Session) (a b : Nat) : Option Bool := do
  return (← session.reports[a]?).isCloneOf (← session.reports[b]?)

def keep (session : Session) (report : Report) : Session :=
  { session with reports := session.reports ++ [report] }

/-- Reports on a source, tells of the outcome and keeps the report. -/
def reportSource (session : Session) (language : Language) (sourceName text : String) :
    Session × Except ReportError Report :=
  match Report.ofSource language sourceName text session.config with
  | .ok report => ((session.record (.fingerprint none)).keep report, .ok report)
  | .error error => (session.record (.fingerprint (some error)), .error error)

/-- A file whose language is unknown is never fingerprinted. -/
def reportFile (session : Session) (filename text : String) :
    Session × Except ReportError Report :=
  match session.config.languages.resolve filename with
  | .ok language => (session.record (.resolve none)).reportSource language filename text
  | .error error => (session.record (.resolve (some error)), .error (.lexical error))

end Session

end SourcePrint
