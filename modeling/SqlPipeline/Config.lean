import SqlPipeline.Error
import SqlPipeline.Json.Decode
import SqlPipeline.Number.Digits
import SqlPipeline.Text.LetterCase

/-!
# Settings

The settings under which a job runs, written and read as text by their names or loaded from JSON.
-/

namespace SqlPipeline

structure Config where
  /-- How many rows a handoff between two tasks can hold. -/
  channelBuffer : Nat
  /-- Whether a panic of a task is passed on instead of being turned into an error. -/
  disableRecover : Bool
deriving DecidableEq, Repr

inductive Setting where
  | channelBuffer | disableRecover
deriving DecidableEq, Repr, Inhabited

namespace Setting

/-- All settings, in the order of their names. -/
def all : List Setting :=
  [channelBuffer, disableRecover]

def name : Setting → String
  | channelBuffer => "channel_buffer"
  | disableRecover => "disable_recover"

def ofName (name : String) : Result Setting :=
  match all.find? (·.name == name) with
  | some setting => .ok setting
  | none => .error (.plan ("Missing setting for '" ++ name ++ "'"))

end Setting

namespace Config

def default : Config := ⟨64, false⟩

instance : Inhabited Config := ⟨default⟩

/-- The least and the greatest number of rows that can be set for a handoff. -/
def minChannelBuffer : Nat := 1

def maxChannelBuffer : Nat := 65536

def get (config : Config) : Setting → String
  | .channelBuffer => toString config.channelBuffer
  | .disableRecover => if config.disableRecover then "true" else "false"

/-- The natural number of 64 bits a text spells; it may have a plus sign. -/
def readWord? (cs : List Char) : Option Nat :=
  let digits := match cs with
    | '+' :: rest => rest
    | _ => cs
  match Number.natural? digits with
  | some n => if n < Number.wordCount then some n else none
  | none => none

def readSwitch? (cs : List Char) : Option Bool :=
  let name := Text.lower (String.ofList cs)
  if name = "true" ∨ name = "on" ∨ name = "1" then some true
  else if name = "false" ∨ name = "off" ∨ name = "0" then some false
  else none

def invalidValue (setting : Setting) (value : String) : Error :=
  .plan ("Invalid value for " ++ setting.name ++ ": " ++ value)

def set (config : Config) (setting : Setting) (value : String) : Result Config :=
  let trimmed := Text.trim value.toList
  match setting with
  | .channelBuffer =>
    match readWord? trimmed with
    | none => .error (invalidValue setting value)
    | some n =>
      if minChannelBuffer ≤ n ∧ n ≤ maxChannelBuffer then
        .ok { config with channelBuffer := n }
      else .error (.plan (setting.name ++ " must be between " ++ toString minChannelBuffer
        ++ " and " ++ toString maxChannelBuffer))
  | .disableRecover =>
    match readSwitch? trimmed with
    | none => .error (invalidValue setting value)
    | some disabled => .ok { config with disableRecover := disabled }

def setByName (config : Config) (name value : String) : Result Config := do
  config.set (← Setting.ofName name) value

def getByName (config : Config) (name : String) : Result String := do
  return config.get (← Setting.ofName name)

open Json Decoder in
/-- A configuration as a record whose missing fields have their defaults. -/
def decoder : Decoder Config := fun depth draft => do
  let found ← record ["channel_buffer", "disable_recover"] depth draft
  return ⟨← found.optional "channel_buffer" default.channelBuffer word,
    ← found.optional "disable_recover" default.disableRecover boolean⟩

def ofText? (text : String) : Option Config :=
  (Json.Draft.ofText? text).bind (decoder Json.maxDepth)

end Config
end SqlPipeline
