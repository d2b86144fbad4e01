import Workflow.Toml.Document

/-!
# Errors of definitions and settings

Why a definition or the settings cannot be read, written or registered. Each cause has a wording.
-/
namespace Workflow

/-- Why a file cannot be read or written. -/
inductive FileFault where
  /-- There is nothing at the path. -/
  | missing
  /-- A part of the path other than the last is no directory. -/
  | notDirectory
  | isDirectory
  /-- The content is no valid UTF-8. -/
  | notText
deriving DecidableEq, Repr

/-- The fault in words. -/
def FileFault.message : FileFault → String
  | .missing => "No such file or directory (os error 2)"
  | .notDirectory => "Not a directory (os error 20)"
  | .isDirectory => "Is a directory (os error 21)"
  | .notText => "stream did not contain valid UTF-8"

/-- What is wrong with a step that has a name. -/
inductive StepFlaw where
  | missingAction
  | missingSubSteps
  | needlessAction
  /-- A step that is no group has steps. -/
  | needlessSubSteps
  /-- A step that calls no action is repeated over a list. -/
  | needlessLoop
  | zeroTimeout
  /-- The result would be stored under a reserved name. -/
  | reservedOutput (output : String)
deriving DecidableEq, Repr

/-- The flaw in words. -/
def StepFlaw.message : StepFlaw → String
  | .missingAction => "action ステップには action が必要です"
  | .missingSubSteps => "parallel ステップには1つ以上のサブステップが必要です"
  | .needlessAction => "parallel ステップに action は指定できません"
  | .needlessSubSteps => "サブステップは parallel ステップにのみ指定できます"
  | .needlessLoop => "loop は action ステップにのみ指定できます"
  | .zeroTimeout => "timeout は1ミリ秒以上を指定してください"
  | .reservedOutput output => "output 名 '" ++ output ++ "' は予約されています"

/-- The lists of steps in which names must differ. -/
inductive StepScope where
  | main (workflow : String)
  | onComplete (workflow : String)
  | onError (workflow : String)
  | group (step : String)
deriving DecidableEq, Repr

/-- The scope in words. -/
def StepScope.message : StepScope → String
  | .main workflow => "ワークフロー '" ++ workflow ++ "' の steps"
  | .onComplete workflow => "ワークフロー '" ++ workflow ++ "' の on_complete"
  | .onError workflow => "ワークフロー '" ++ workflow ++ "' の on_error"
  | .group step => "parallel ステップ '" ++ step ++ "'"

/-- The settings that must not be zero. -/
inductive PositiveSetting where
  /-- The number of steps of a group that run at once. -/
  | maxParallelSteps
  /-- The time limit of actions that have none of their own. -/
  | defaultActionTimeout
  /-- The number of events kept for each receiver. -/
  | eventBuffer
deriving DecidableEq, Repr

/-- The name of a setting. -/
def PositiveSetting.key : PositiveSetting → String
  | .maxParallelSteps => "max_parallel_steps"
  | .defaultActionTimeout => "default_action_timeout_ms"
  | .eventBuffer => "event_buffer"

/-- Why data of the right form is not accepted. -/
inductive Invalidity where
  | blankWorkflowName
  | noSteps (workflow : String)
  | blankStepName
  /-- A step has a flaw. -/
  | step (name : String) (flaw : StepFlaw)
  /-- Two steps of one list have the same name. -/
  | repeatedStep (scope : StepScope) (name : String)
  /-- A setting is zero. -/
  | zeroSetting (setting : PositiveSetting)
  | blankActionName
  /-- Another reason, given in words. -/
  | stated (reason : String)
deriving DecidableEq, Repr

/-- The reason in words. -/
def Invalidity.message : Invalidity → String
  | .blankWorkflowName => "ワークフロー名が空です"
  | .noSteps workflow =>
    "ワークフロー '" ++ workflow ++ "' には1つ以上のステップが必要です (at least one step)"
  | .blankStepName => "ステップ名が空です"
  | .step name flaw => "ステップ '" ++ name ++ "': " ++ flaw.message
  | .repeatedStep scope name =>
    scope.message ++ " 内でステップ名 '" ++ name ++ "' が重複しています"
  | .zeroSetting setting => setting.key ++ " は1以上を指定してください"
  | .blankActionName => "アクション名が空です"
  | .stated reason => reason

/-- Why a definition or the settings cannot be read, written or registered. -/
inductive ConfigError where
  /-- A file cannot be read or written. -/
  | file (fault : FileFault)
  /-- A text is no document, or the document does not have the right form. -/
  | malformed (fault : Toml.Fault)
  /-- A definition holds a null, which cannot be written. -/
  | unwritable
  /-- Data of the right form is not accepted. -/
  | invalid (reason : Invalidity)
  | unknownAction (workflow step action : String)
  | duplicateWorkflow (name : String)
deriving DecidableEq, Repr

/-- The error in words. -/
def ConfigError.message : ConfigError → String
  | .file fault => "設定ファイルの読み込みに失敗しました: " ++ fault.message
  | .malformed fault => "TOML のデシリアライズに失敗しました: " ++ fault.message
  | .unwritable => "TOML のシリアライズに失敗しました: unsupported unit type"
  | .invalid reason => "設定のバリデーションに失敗しました: " ++ reason.message
  | .unknownAction workflow step action =>
    "ワークフロー '" ++ workflow ++ "' のステップ '" ++ step ++ "' が未登録のアクション '" ++
      action ++ "' を参照しています"
  | .duplicateWorkflow name => "ワークフロー '" ++ name ++ "' は既に登録されています"

end Workflow
