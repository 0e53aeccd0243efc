import AgentOS.Agent.Loops
import Mathlib.Data.Rat.Defs

/-!
# Charges for model usage

`LLMStepActivity` calls the model, publishes the text and charges the account through
`DeductUsage`; the platform retries an attempt that fails or is lost.  Money is a rational here.
The usage records, which no charge depends on, are left out.
-/

namespace AgentOS.Agent

/-- A row of the credit ledger. -/
structure CreditTransaction where
  accountID : String
  amount : ℚ
  type : String := "usage"
  description : String

/-- What `LLMStep` returns.  `cost` is `Usage.Cost`. -/
structure LLMStepResult where
  content : String := ""
  usage : Usage := {}
  cost : ℚ := 0

/-- How the insert of a ledger row ends. -/
inductive Insert where
  | done
  | failed (err : Err)
  | unacknowledged (err : Err)

/-- What an attempt meets.  `recorded` says that its completion reaches the platform, and an
attempt that is lost before a call of the store is one in which that call fails. -/
structure StepAttempt where
  result : Except Err LLMStepResult
  publish : Option Err := none
  flush : Option Err := none
  price : Except Err ℚ := .ok 0
  update : Option Err := none
  insert : Insert := .done
  recorded : Bool := true

/-- `Deduct`, with a balance that suffices: the balance is updated and then the ledger. -/
def deduct (a : StepAttempt) (row : CreditTransaction) (ledger : List CreditTransaction) :
    List CreditTransaction × Option Err :=
  match a.update, a.insert with
  | some err, _ => (ledger, some (.within "BillingRepo - Deduct - update" err))
  | none, .failed err => (ledger, some (.within "BillingRepo - Deduct - insert ledger" err))
  | none, .unacknowledged err =>
      (ledger ++ [row], some (.within "BillingRepo - Deduct - insert ledger" err))
  | none, .done => (ledger ++ [row], none)

section Charges

variable (costs : Bool) (input : LLMStepInput)

def usageCost (a : StepAttempt) (result : LLMStepResult) : Except Err ℚ :=
  if result.cost ≤ 0 ∧ costs = true then
    match a.price with
    | .error err => .error (.within "billing - DeductUsage - calculate cost" err)
    | .ok cost => .ok cost
  else .ok result.cost

def usageRow (result : LLMStepResult) (cost : ℚ) : CreditTransaction where
  accountID := input.accountID
  amount := -cost
  description := "LLM usage: model=" ++ input.config.model ++ " tokens=" ++
    toString result.usage.promptTokens ++ "+" ++ toString result.usage.completionTokens

def deductUsage (a : StepAttempt) (result : LLMStepResult) (ledger : List CreditTransaction) :
    List CreditTransaction × Option Err :=
  match usageCost costs a result with
  | .error err => (ledger, some err)
  | .ok cost => if cost ≤ 0 then (ledger, none) else deduct a (usageRow input result cost) ledger

/-- An attempt of `LLMStepActivity` of a deployment with billing.  A failed charge is only
logged. -/
def llmStepActivity (a : StepAttempt) (ledger : List CreditTransaction) :
    List CreditTransaction × Option LLMStepResult :=
  match a.result with
  | .error _ => (ledger, none)
  | .ok result =>
    if (result.content ≠ "" ∧ a.publish.isSome) ∨ a.flush.isSome then (ledger, none)
    else
      let ledger := if input.accountID ≠ "" ∧ result.usage.totalTokens > 0 then
          (deductUsage costs input a result ledger).1
        else ledger
      (ledger, if a.recorded then some result else none)

/-- The ledger after attempts of one step. -/
def charged (attempts : List StepAttempt) (ledger : List CreditTransaction) :
    List CreditTransaction :=
  attempts.foldl (fun ledger a => (llmStepActivity costs input a ledger).1) ledger

variable {costs input}

end Charges

end AgentOS.Agent
