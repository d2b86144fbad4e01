import Workflow.Expression.Condition
import Workflow.Review
import Workflow.StepError
import Workflow.Value.Writer

/-!
# Warnings

What an engine finds remarkable without failing. A warning has a message and fields.
-/
namespace Workflow

/-- Something remarkable. -/
inductive Warning where
  /-- A condition cannot be read; the step runs. -/
  | unreadableCondition (condition : String) (cause : ConditionError)
  /-- An action ran out of time and its step takes its fallback. -/
  | fallbackUsed (step : String) (limit : Nat)
  | autoApproved (step : String)
  | requestReplaced (key : ReviewKey)
  /-- A decision found no request. -/
  | noRequest (key : ReviewKey)
  /-- A decision found a request whose step has ended. -/
  | stepEnded (key : ReviewKey)
  /-- A step of a group failed and counts as null. -/
  | subStepFailed (step subStep : String) (error : StepError)
  | runFailed (execution workflow step error : String)
  | missingDirectory
  /-- An action that is not registered is registered as a stub. -/
  | stubRegistered (action : String)
  /-- Events were lost before they could be handled. -/
  | eventsLost (count : Nat)
deriving DecidableEq, Repr

namespace Warning

/-- The message of a warning. -/
def message : Warning → String
  | .unreadableCondition .. => "条件式を解析できないため、ステップを実行します"
  | .fallbackUsed .. => "タイムアウトしたためフォールバック値を使用します"
  | .autoApproved _ => "タイムアウトしたため自動承認します"
  | .requestReplaced _ => "同じキーの保留中リクエストを置き換えました"
  | .noRequest _ => "該当する保留中リクエストがありません"
  | .stepEnded _ => "待機中のステップが既に終了しています"
  | .subStepFailed .. => "サブステップが失敗したため null として扱います"
  | .runFailed .. => "ワークフローが失敗しました"
  | .missingDirectory => "ワークフローディレクトリが存在しません"
  | .stubRegistered _ => "未登録のアクションをスタブとして登録します"
  | .eventsLost _ => "イベントの受信が追いつかず一部を読み飛ばしました"

/-- The fields of a warning that names a request. -/
def keyFields (key : ReviewKey) : List (String × Value) :=
  [("execution_id", .text key.execution), ("step", .text key.step)]

/-- The fields of a warning. -/
def fields : Warning → List (String × Value)
  | .unreadableCondition condition cause =>
    [("condition", .text condition), ("reason", .text cause.message)]
  | .fallbackUsed step limit => [("step", .text step), ("timeout_ms", .ofNat limit)]
  | .autoApproved step => [("step", .text step)]
  | .requestReplaced key => keyFields key
  | .noRequest key => keyFields key
  | .stepEnded key => keyFields key
  | .subStepFailed step subStep error =>
    [("step", .text step), ("sub_step", .text subStep), ("error", .text error.message)]
  | .runFailed execution workflow step error =>
    [("execution_id", .text execution), ("workflow", .text workflow), ("step", .text step),
      ("error", .text error)]
  | .missingDirectory => []
  | .stubRegistered action => [("action", .text action)]
  | .eventsLost count => [("skipped", .ofNat count)]

/-- The warning as a value. -/
def toValue (warning : Warning) : Value :=
  .ofFields (("message", .text warning.message) :: warning.fields)

/-- The warning as a line. -/
def line (warning : Warning) : String :=
  " ".intercalate (("WARN " ++ warning.message) ::
    warning.fields.map fun field => field.1 ++ "=" ++ field.2.compact)

end Warning

end Workflow
