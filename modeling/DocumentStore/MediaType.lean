import DocumentStore.Fault

/-!
# Media types

The settings of a media field name the type of the player by a constant; stored settings hold its
code instead. `MediaType.encodeSettings` and `MediaType.decodeSettings` exchange the two forms in
place and leave all other settings alone. Settings without a media type pass unchanged.
-/

namespace DocumentStore

/-- The types of media players. -/
inductive MediaType where
  | flash
  | quickTime
  | realPlayer
  | silverlight
  | windowsMedia
  | html5Video
  | html5Audio
  deriving DecidableEq, Repr

namespace MediaType

/-- All media types, in the order of their codes. -/
def all : List MediaType :=
  [flash, quickTime, realPlayer, silverlight, windowsMedia, html5Video, html5Audio]

/-- The constant that names a media type. -/
def name : MediaType → String
  | flash => "TYPE_FLASH"
  | quickTime => "TYPE_QUICKTIME"
  | realPlayer => "TYPE_REALPLAYER"
  | silverlight => "TYPE_SILVERLIGHT"
  | windowsMedia => "TYPE_WINDOWSMEDIA"
  | html5Video => "TYPE_HTML5_VIDEO"
  | html5Audio => "TYPE_HTML5_AUDIO"

/-- The code that is stored for a media type. -/
def code : MediaType → Int32
  | flash => 1
  | quickTime => 2
  | realPlayer => 3
  | silverlight => 4
  | windowsMedia => 5
  | html5Video => 6
  | html5Audio => 7

/-- The media type that a constant names. -/
def ofName? (name : String) : Option MediaType := all.find? fun type => type.name = name

/-- The media type that a code stands for. -/
def ofCode? (code : Int64) : Option MediaType := all.find? fun type => type.code.toInt64 = code

/-- The setting that holds the media type. -/
def setting : String := "mediaType"

/-- Puts the code in place of the constant. -/
def encodeSettings (settings : Document) : Except Fault Document :=
  match settings.get? setting with
  | none => .ok settings
  | some (.string name) =>
    match ofName? name with
    | some type => .ok (settings.insert setting (.int32 type.code))
    | none => .error (.unknownMediaName name)
  | some found => .error (.mediaNotName found)

/-- Puts the constant in place of the code, which may be an integer of either width. -/
def decodeSettings (settings : Document) : Except Fault Document :=
  match settings.get? setting with
  | none => .ok settings
  | some found =>
    match found.asInt? with
    | some code =>
      match ofCode? code with
      | some type => .ok (settings.insert setting (.string type.name))
      | none => .error (.unknownMediaCode code)
    | none => .error (.mediaNotCode found)

end MediaType

end DocumentStore
