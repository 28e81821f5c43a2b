import SiliconOffice.Python.Number

/-!
# Token prices

USD per million tokens.  Rates and costs are exact rationals, without rounding or overflow,
and with the infinities and NaN that a token count can be.
-/

namespace SiliconOffice
namespace Common

open Library Python

/-- `_MODEL_RATES`: input and output rate of a model. -/
def modelRates : List (String × ℚ × ℚ) :=
  [("claude-fable-5", 10, 50),
   ("claude-mythos-5", 10, 50),
   ("claude-opus-4-8", 5, 25),
   ("claude-opus-4-7", 5, 25),
   ("claude-opus-4-6", 5, 25),
   ("claude-opus-4-5", 5, 25),
   ("claude-opus-4-1", 5, 25),
   ("claude-opus-4-0", 5, 25),
   ("claude-sonnet-5", 3, 15),
   ("claude-sonnet-4-6", 3, 15),
   ("claude-sonnet-4-5", 3, 15),
   ("claude-sonnet-4-0", 3, 15),
   ("claude-haiku-4-5", 1, 5)]

/-- `_DEFAULT_RATE`. -/
def defaultRate : ℚ × ℚ := (3, 15)

def cacheWriteMultiplier : ℚ := 5 / 4

def cacheReadMultiplier : ℚ := 1 / 10

/-- `_MODEL_RATES.get(model, _DEFAULT_RATE)`; the lookup hashes the model. -/
def rateOf (model : Json) : Except PyErr (ℚ × ℚ) := do
  let key ← model.hash
  match key with
  | .str name => .ok ((modelRates.lookup name).getD defaultRate)
  | _ => .ok defaultRate

/-- `usage.get(key) or 0` as an operand. -/
def countOf (usage : Json) (key : String) : Except PyErr Number := do
  let value ← usage.get key .null
  if value.truthy then value.toNumber else .ok 0

/-- `cost_for_usage`. -/
def costForUsage (model usage : Json) : Except PyErr Number := do
  let (inputRate, outputRate) ← rateOf model
  let inputTokens ← countOf usage "input_tokens"
  let outputTokens ← countOf usage "output_tokens"
  let cacheWrite ← countOf usage "cache_creation_input_tokens"
  let cacheRead ← countOf usage "cache_read_input_tokens"
  let cost := inputTokens.scale inputRate + outputTokens.scale outputRate +
    (cacheWrite.scale inputRate).scale cacheWriteMultiplier +
    (cacheRead.scale inputRate).scale cacheReadMultiplier
  .ok (cost.scale (1 / 1000000))

/-- The token counts of a usage record. -/
def tokenKeys : List String :=
  ["input_tokens", "output_tokens", "cache_creation_input_tokens", "cache_read_input_tokens"]

/-- What a line may carry as a token count: a number, or nothing. -/
def IsCount (value : Json) : Prop :=
  value = .null ∨ ∃ number, value.toNumber = .ok number

variable {model usage : Json}

theorem countOf_returns (hobject : usage.isObject = true) {key : String}
    (h : IsCount ((usage.get? key).getD .null)) : ∃ number, countOf usage key = .ok number := by
  unfold countOf
  rw [Json.get_of_isObject hobject]
  change ∃ number, (if ((usage.get? key).getD .null).truthy = true then _ else _) = _
  split
  · rename_i htruthy
    rcases h with hnull | hnumber
    · rw [hnull] at htruthy
      cases htruthy
    · exact hnumber
  · exact ⟨0, rfl⟩

theorem rateOf_returns {key : DictKey} (h : model.hash = .ok key) :
    ∃ rates, rateOf model = .ok rates := by
  unfold rateOf
  rw [h]
  cases key <;> exact ⟨_, rfl⟩

theorem hash_of_costForUsage {cost : Number} (h : costForUsage model usage = .ok cost) :
    ∃ key, model.hash = .ok key := by
  obtain ⟨rates, hrates, -⟩ := exists_of_bind_ok h
  obtain ⟨key, hkey, -⟩ := exists_of_bind_ok hrates
  exact ⟨key, hkey⟩

/-- A usage record with token counts has a price. -/
theorem costForUsage_returns (hobject : usage.isObject = true) {key : DictKey}
    (hmodel : model.hash = .ok key)
    (hcounts : ∀ name ∈ tokenKeys, IsCount ((usage.get? name).getD .null)) :
    ∃ cost, costForUsage model usage = .ok cost := by
  obtain ⟨rates, hrates⟩ := rateOf_returns hmodel
  have hcount : ∀ name ∈ tokenKeys, ∃ number, countOf usage name = .ok number := fun name hname =>
    countOf_returns hobject (hcounts name hname)
  obtain ⟨input, hinput⟩ := hcount "input_tokens" (by decide)
  obtain ⟨output, houtput⟩ := hcount "output_tokens" (by decide)
  obtain ⟨write, hwrite⟩ := hcount "cache_creation_input_tokens" (by decide)
  obtain ⟨read, hread⟩ := hcount "cache_read_input_tokens" (by decide)
  unfold costForUsage
  rw [hrates, hinput, houtput, hwrite, hread]
  exact ⟨_, rfl⟩

end Common
end SiliconOffice
