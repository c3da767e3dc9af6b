/-
  The usage of a model call (`utils/response.py`): token counts and costs, under the names that the
  providers give them.

  `normalize_usage` adds the counts under their standard names, and `merge_usage` adds two usages
  up.  A usage that is not well formed raises (`none`).
-/
import TideBot.Lib.PyJson

namespace TideBot

open Lib

/-- What Python makes of texts: `int(text)` and `str(value)`. -/
structure PyConv where
  int : Text → Option ℤ
  str : Json → Text

def Sample.noText : PyConv := ⟨fun _ => none, fun _ => []⟩

variable (py : PyConv)

/-- `usage.get(a) or usage.get(b) or …` -/
def firstOf (usage : PyDict) : List String → Json
  | [] => .null
  | [key] => usage.fetch key
  | key :: keys => (usage.fetch key).or (firstOf usage keys)

/-- `normalize_usage`, of a dictionary that is not empty. -/
def normalizeCounts (usage : PyDict) : Option PyDict := do
  let reported := firstOf usage ["input_tokens", "prompt_tokens", "prompt_eval_count"]
  let inputTokens ←
    if reported.isNone then do
      let promptN ← ((usage.fetch "prompt_n").or (.int 0)).toInt py.int
      let cacheN ← ((usage.fetch "cache_n").or (.int 0)).toInt py.int
      some (.int (promptN + cacheN))
    else some reported
  let outputTokens :=
    (firstOf usage ["output_tokens", "completion_tokens", "eval_count", "predicted_n"]).or (.int 0)
  let totalTokens ←
    if (usage.fetch "total_tokens").truthy then some (usage.fetch "total_tokens")
    else inputTokens.add outputTokens
  return ((usage.put "input_tokens" (.int (← inputTokens.toInt py.int))).put "output_tokens"
    (.int (← outputTokens.toInt py.int))).put "total_tokens" (.int (← totalTokens.toInt py.int))

/-- `normalize_usage`; a string, a number or a list has no `get`. -/
def normalizeUsage (usage : Json) : Option PyDict :=
  if usage.truthy then
    match usage with
    | .obj fields => normalizeCounts py (.ofFields fields)
    | _ => none
  else some .empty

/-- `USAGE_SUMMABLE_KEYS` -/
def usageSummableKeys : List String :=
  ["input_tokens", "output_tokens", "total_tokens", "cost", "total_cost", "input_cost", "output_cost",
    "prompt_cost", "completion_cost"]

/-- `USAGE_DETAIL_KEYS` -/
def usageDetailKeys : List String :=
  ["prompt_tokens_details", "completion_tokens_details", "input_tokens_details", "output_tokens_details"]

/-- The value, if it is a number; else 0. -/
def numberOrZero (value : Json) : Json := if value.isNumber then value else .int 0

/-- The sum of what is a number of the two. -/
def sumNumbers (current incoming : Json) : Json :=
  ((numberOrZero current).add (numberOrZero incoming)).getD .null

/-- The value, if it is a dictionary; else `{}`. -/
def dictOrEmpty : Json → PyDict
  | .obj fields => .ofFields fields
  | _ => .empty

mutual

/-- How deep the objects are nested. -/
def nesting : Json → ℕ
  | .obj fs => nestingFields fs + 1
  | _ => 0

def nestingFields : List (Text × Json) → ℕ
  | [] => 0
  | (_, x) :: fs => max (nesting x) (nestingFields fs)

end

/-- `_merge_numeric_usage_map`; the fuel is how deep the objects are nested. -/
def mergeNumericUsageMap : ℕ → PyDict → PyDict → PyDict
  | 0, current, incoming => current.update incoming
  | fuel + 1, current, incoming =>
    (current.update incoming).mapWithKey fun key value =>
      let currentValue := (current.get key).getD (.int 0)
      let incomingValue := (incoming.get key).getD (.int 0)
      if currentValue.isObj || incomingValue.isObj then
        (mergeNumericUsageMap fuel (dictOrEmpty currentValue) (dictOrEmpty incomingValue)).toJson
      else if currentValue.isNumber || incomingValue.isNumber then sumNumbers currentValue incomingValue
      else value

/-- One round of the loop over `USAGE_SUMMABLE_KEYS`. -/
def mergeSummable (current incoming result : PyDict) (key : String) : PyDict :=
  let currentValue := current.fetchD key (.int 0)
  let incomingValue := incoming.fetchD key (.int 0)
  if ((current.get (.lit key)).isSome || (incoming.get (.lit key)).isSome) &&
      (currentValue.isNumber || incomingValue.isNumber) then
    result.put key (sumNumbers currentValue incomingValue)
  else result

/-- One round of the loop over `USAGE_DETAIL_KEYS`. -/
def mergeDetails (current incoming result : PyDict) (key : String) : PyDict :=
  if (current.fetch key).isObj || (incoming.fetch key).isObj then
    result.put key (mergeNumericUsageMap (max (nesting (current.fetch key)) (nesting (incoming.fetch key)))
      (dictOrEmpty (current.fetch key)) (dictOrEmpty (incoming.fetch key))).toJson
  else result

/-- `merge_usage`, of two normalized usages that are not empty. -/
def mergeCounts (current incoming : PyDict) : PyDict :=
  let result := usageSummableKeys.foldl (mergeSummable current incoming) (current.update incoming)
  let result := usageDetailKeys.foldl (mergeDetails current incoming) result
  let result := result.put "prompt_tokens" ((incoming.fetch "prompt_tokens").or
    ((incoming.fetch "input_tokens").or (current.fetchD "prompt_tokens" (.int 0))))
  result.put "completion_tokens" ((incoming.fetch "completion_tokens").or
    ((incoming.fetch "output_tokens").or (current.fetchD "completion_tokens" (.int 0))))

/-- `merge_usage` -/
def mergeUsage (current incoming : PyDict) : Option PyDict := do
  let currentUsage ← normalizeUsage py current.toJson
  let incomingUsage ← normalizeUsage py incoming.toJson
  if incomingUsage.entries.isEmpty then return currentUsage
  else if currentUsage.entries.isEmpty then return incomingUsage
  else return mergeCounts currentUsage incomingUsage

end TideBot
