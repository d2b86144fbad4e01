import Workflow.StepError

/-!
# Failures of the command line

A command fails when the settings, a definition or the payload of the trigger cannot be used, or
when the workflow is not known.
-/
namespace Workflow.CommandLine

/-- Why a command fails. -/
inductive Failure where
  /-- The settings or a definition cannot be used. -/
  | config (error : ConfigError)
  /-- The engine refuses. -/
  | engine (error : EngineError)
  /-- The file with the payload of the trigger cannot be read. -/
  | triggerFile (fault : FileFault)
  /-- The payload of the trigger is no value. -/
  | triggerText
deriving DecidableEq, Repr

/-- The failure in words. -/
def Failure.message : Failure → String
  | .config error => error.message
  | .engine error => error.message
  | .triggerFile fault => fault.message
  | .triggerText => "invalid JSON"

/-- The line that tells a failure. -/
def Failure.line (failure : Failure) : String := "エラー: " ++ failure.message

end Workflow.CommandLine
