import DisplayPipeline.Settings.Basic
import DisplayPipeline.Settings.Reader

/-!
# Settings as text

Settings are written as a JSON object. Members may come in any order and may be left out, but each
at most once, and no others. A list gives the values in order; those left out at the end keep their
defaults.
-/

namespace DisplayPipeline

/-- The members of settings as text. -/
inductive SettingsField where
  | textureFilterQuality
  | textureCacheBudgetBytes
  | textureCacheMaxEntries
  | combinerAccuracy
  | hashImplementation
  | ringBufferBytes
  | ringAllocTimeoutMs
  | maxDisplayListDepth
  | backend
  | renderTargetFormat
  | screenWidth
  | screenHeight
deriving DecidableEq, Repr

namespace SettingsField

def all : List SettingsField :=
  [textureFilterQuality, textureCacheBudgetBytes, textureCacheMaxEntries, combinerAccuracy,
    hashImplementation, ringBufferBytes, ringAllocTimeoutMs, maxDisplayListDepth, backend,
    renderTargetFormat, screenWidth, screenHeight]

def name : SettingsField → String
  | textureFilterQuality => "textureFilterQuality"
  | textureCacheBudgetBytes => "textureCacheBudgetBytes"
  | textureCacheMaxEntries => "textureCacheMaxEntries"
  | combinerAccuracy => "combinerAccuracy"
  | hashImplementation => "hashImplementation"
  | ringBufferBytes => "ringBufferBytes"
  | ringAllocTimeoutMs => "ringAllocTimeoutMs"
  | maxDisplayListDepth => "maxDisplayListDepth"
  | backend => "backend"
  | renderTargetFormat => "renderTargetFormat"
  | screenWidth => "screenWidth"
  | screenHeight => "screenHeight"

def byName : List (String × SettingsField) := all.map fun field => (field.name, field)

end SettingsField

namespace Settings

def narrowingNames : List (String × Narrowing) := [("fast", .nearest), ("quality", .diffused)]

def accuracyNames : List (String × Combiner.Accuracy) := [("fast", .fast), ("accurate", .accurate)]

def digestNames : List (String × Digest.Route) :=
  [("vectorized", .vectorized), ("scalar", .scalar)]

def deviceNames : List (String × DeviceKind) := [("headless", .headless)]

/-- The names of the formats of the render target. -/
def targetNames : List (String × TargetFormat) :=
  [("rgba8", .rgba8), ("rgba16f", .rgba16f), ("rgba32f", .rgba32f)]

def readField (s : Settings) : SettingsField → Reader Settings
  | .textureFilterQuality => return { s with narrowing := ← Reader.choice narrowingNames }
  | .textureCacheBudgetBytes => return { s with textureBudget := ← Reader.natural UInt64.size }
  | .textureCacheMaxEntries => return { s with maxTextures := ← Reader.natural UInt64.size }
  | .combinerAccuracy => return { s with accuracy := ← Reader.choice accuracyNames }
  | .hashImplementation => return { s with digest := ← Reader.choice digestNames }
  | .ringBufferBytes => return { s with ringBytes := ← Reader.natural UInt64.size }
  | .ringAllocTimeoutMs => return { s with ringPatience := ← Reader.natural UInt64.size }
  | .maxDisplayListDepth => return { s with maxDepth := ← Reader.natural UInt64.size }
  | .backend => return { s with device := ← Reader.choice deviceNames }
  | .renderTargetFormat => return { s with targetFormat := ← Reader.choice targetNames }
  | .screenWidth => return { s with screenWidth := .ofNat (← Reader.natural UInt32.size) }
  | .screenHeight => return { s with screenHeight := .ofNat (← Reader.natural UInt32.size) }

/-- Whether a list goes on with a value; a comma before it is taken. -/
def hasElement (isFirst : Bool) : Reader Bool := do
  match ← Reader.next? with
  | none => Reader.fail .truncated
  | some b =>
    if b = Reader.ascii ']' then return false
    else if isFirst then return true
    else if b = Reader.ascii ',' then
      Reader.skip
      match ← Reader.next? with
      | none => Reader.fail .truncated
      | some b => if b = Reader.ascii ']' then Reader.fail .malformed else return true
    else Reader.fail .malformed

def readElements (isFirst : Bool) (s : Settings) : List SettingsField → Reader Settings
  | [] => do
    Reader.expect ']'
    return s
  | field :: fields => do
    if ← hasElement isFirst then readElements false (← s.readField field) fields
    else
      Reader.expect ']'
      return s

/-- Whether an object goes on with a member; a comma before it and the quote of its name are
taken. -/
def hasMember (isFirst : Bool) : Reader Bool := do
  match ← Reader.next? with
  | none => Reader.fail .truncated
  | some b =>
    if b = Reader.ascii '\x7d' then return false
    else if isFirst then
      Reader.expect '"'
      return true
    else if b = Reader.ascii ',' then
      Reader.skip
      Reader.expect '"'
      return true
    else Reader.fail .malformed

theorem length_erase_lt {field : SettingsField} {fields : List SettingsField}
    (h : field ∈ fields) : (fields.erase field).length < fields.length := by
  have hpos := List.length_pos_of_mem h
  have herase := List.length_erase_of_mem h
  omega

/-- Reads members, each of which is one that was not read before. -/
def readMembers (isFirst : Bool) (s : Settings) (unread : List SettingsField) :
    Reader Settings := do
  if ← hasMember isFirst then
    let field ← Reader.named SettingsField.byName (← Reader.string)
    if h : field ∈ unread then
      have := length_erase_lt h
      Reader.expect ':'
      let s ← s.readField field
      readMembers false s (unread.erase field)
    else Reader.fail .mismatched
  else
    Reader.skip
    return s
termination_by unread.length

def reader : Reader Settings := do
  match ← Reader.next? with
  | none => Reader.fail .truncated
  | some b =>
    let s ←
      if b = Reader.ascii '[' then
        Reader.skip
        readElements true {} SettingsField.all
      else if b = Reader.ascii '\x7b' then
        Reader.skip
        readMembers true {} SettingsField.all
      else Reader.wrongKind b
    Reader.finish
    return s

def ofText (text : String) : Except ReadFault Settings :=
  Prod.fst <$> reader.run (Reader.nameBytes text)

/-- The name of a value in a table that has one for every value. -/
def nameOf {α : Type} [DecidableEq α] (table : List (String × α)) (value : α) : String :=
  ((table.find? fun entry => entry.2 = value).map (·.1)).getD ""

def quoted (name : String) : String := "\"" ++ name ++ "\""

def fieldText (s : Settings) : SettingsField → String
  | .textureFilterQuality => quoted (nameOf narrowingNames s.narrowing)
  | .textureCacheBudgetBytes => toString s.textureBudget
  | .textureCacheMaxEntries => toString s.maxTextures
  | .combinerAccuracy => quoted (nameOf accuracyNames s.accuracy)
  | .hashImplementation => quoted (nameOf digestNames s.digest)
  | .ringBufferBytes => toString s.ringBytes
  | .ringAllocTimeoutMs => toString s.ringPatience
  | .maxDisplayListDepth => toString s.maxDepth
  | .backend => quoted (nameOf deviceNames s.device)
  | .renderTargetFormat => quoted (nameOf targetNames s.targetFormat)
  | .screenWidth => toString s.screenWidth.toNat
  | .screenHeight => toString s.screenHeight.toNat

def text (s : Settings) : String :=
  let members := SettingsField.all.map fun field => quoted field.name ++ ":" ++ s.fieldText field
  "\x7b" ++ String.intercalate "," members ++ "\x7d"

end Settings

end DisplayPipeline
