import Workflow.ConfigError
import Workflow.Value

/-!
# Errors of runs

A step fails with a cause; a failed step makes its run a failed one, which is no error of the
engine. The engine itself only fails where a workflow is not known or a definition is refused.
-/
namespace Workflow

/-- The failure of an action, in the words of the action. -/
structure ActionError where
  message : String
deriving DecidableEq, Repr

/-- Why a step fails. -/
inductive StepError where
  | actionFailed (action : String) (source : ActionError)
  | missingAction (step : String)
  | unknownAction (action : String)
  /-- The action took longer than its limit in microseconds. -/
  | timedOut (step : String) (microseconds : Nat)
  | humanRejected (step reason : String)
  | humanTimedOut (step : String)
  /-- The request was dropped without an answer. -/
  | humanAborted (step : String)
  | noSubSteps (step : String)
  /-- The expression of a repeated step denotes something else than a list. -/
  | notIterable (step expression : String)
  | noExecutor (step : String)
deriving DecidableEq, Repr

namespace StepError

/-- The time limit of an action in milliseconds that has run out. -/
def timedOutAfter (step : String) (milliseconds : Nat) : StepError :=
  .timedOut step (milliseconds * 1000)

/-- The step ran out of time. -/
def isTimeout : StepError → Bool
  | .timedOut .. | .humanTimedOut _ => true
  | _ => false

/-- The name of the sort of error. -/
def kind : StepError → String
  | .actionFailed .. => "ActionFailed"
  | .missingAction _ => "MissingAction"
  | .unknownAction _ => "UnknownAction"
  | .timedOut .. => "Timeout"
  | .humanRejected .. => "HumanRejected"
  | .humanTimedOut _ => "HumanTimedOut"
  | .humanAborted _ => "HumanAborted"
  | .noSubSteps _ => "NoSubSteps"
  | .notIterable .. => "NotIterable"
  | .noExecutor _ => "NoExecutor"

/-- The error in words. -/
def message : StepError → String
  | .actionFailed action source =>
    "アクション '" ++ action ++ "' が失敗しました: " ++ source.message
  | .missingAction step => "ステップ '" ++ step ++ "' にアクションが指定されていません"
  | .unknownAction action => "未登録のアクションです: " ++ action
  | .timedOut step microseconds =>
    "タイムアウト: ステップ '" ++ step ++ "' が " ++ toString (microseconds / 1000) ++
      "ms 以内に完了しませんでした"
  | .humanRejected _ reason => "human rejected: " ++ reason
  | .humanTimedOut step => "ステップ '" ++ step ++ "' の人による確認がタイムアウトしました"
  | .humanAborted step =>
    "ステップ '" ++ step ++ "' の保留中リクエストが応答なしで破棄されました"
  | .noSubSteps step => "parallel ステップ '" ++ step ++ "' にサブステップがありません"
  | .notIterable step expression =>
    "ステップ '" ++ step ++ "' の loop 式 '" ++ expression ++ "' が配列ではありません"
  | .noExecutor step => "ステップ '" ++ step ++ "' を処理できるエグゼキューターがありません"

/-- The error of the action behind the failure. -/
def source? : StepError → Option ActionError
  | .actionFailed _ source => some source
  | _ => none

/-- The error as a value. -/
def toValue (error : StepError) : Value :=
  .ofFields [
    ("error", .text error.kind),
    ("message", .text error.message),
    ("source", ((error.source?.map ActionError.message).map Value.text).getD .null),
    ("timeout", .bool error.isTimeout)]

end StepError

/-- Why the engine refuses. -/
inductive EngineError where
  | config (error : ConfigError)
  | workflowNotFound (name : String)
deriving DecidableEq, Repr

/-- The error in words. -/
def EngineError.message : EngineError → String
  | .config error => "定義エラー: " ++ error.message
  | .workflowNotFound name => "ワークフロー '" ++ name ++ "' が見つかりません"

end Workflow
