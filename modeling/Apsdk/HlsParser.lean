import Apsdk.MediaDataStore

/-! The parser for master playlists in `third-party/hlsparser`. A pointer is what lies between
it and the zero that ends the text, so that every `size` is the length of what is left.
Nothing is given where the text is read behind that zero. -/

namespace Apsdk.HlsParser
open Library

/-- `*pt` -/
def peek (pt : Bytes) : UInt8 := pt.headD 0

/-- `++pt` -/
def next : Bytes → Option Bytes
  | [] => none
  | _ :: rest => some rest

/-- The ends of a line of attributes. -/
def isEnd (byte : UInt8) : Bool := byte = 0 ∨ byte = 13 ∨ byte = 10

section Values

def lineLength : Bytes → Nat
  | [] => 0
  | byte :: rest => if byte = 10 ∨ (byte = 13 ∧ peek rest = 10) ∨ byte = 0 then 0 else lineLength rest + 1

/-- `parse_line_to_str`; an empty line leaves the destination alone. -/
def parseLineToStr (src : Bytes) : Option Bytes × Bytes :=
  let size := lineLength src
  (if 0 < size then some (src.take size) else none, src.drop size)

def isDigit (byte : UInt8) : Bool := 48 ≤ byte ∧ byte ≤ 57

/-- The loop of `parse_str_to_int`, over an int of two's complement. -/
def intDigits (value : BitVec 32) : Bytes → BitVec 32 × Bytes
  | [] => (value, [])
  | byte :: rest =>
    if isDigit byte then intDigits (value * 10 + BitVec.ofNat 32 (byte.toNat - 48)) rest else (value, byte :: rest)

/-- `parse_str_to_int`; at the end of the text the destination is left alone. -/
def parseStrToInt (src : Bytes) : Option (BitVec 32) × Bytes :=
  if src = [] then (none, src)
  else if peek src = 45 then
    let (value, pt) := intDigits 0 (src.drop 1)
    (some (-value), pt)
  else
    let (value, pt) := intDigits 0 src
    (some value, pt)

/-- The loops of `parse_str_to_float`: the digits as a number, and ten to the power of their count. -/
def floatDigits (value divis : Float32) : Bytes → Float32 × Float32 × Bytes
  | [] => (value, divis, [])
  | byte :: rest =>
    if isDigit byte then floatDigits (value * 10 + Float32.ofNat (byte.toNat - 48)) (divis * 10) rest
    else (value, divis, byte :: rest)

/-- `parse_str_to_float` -/
def parseStrToFloat (src : Bytes) : Option Float32 × Bytes :=
  if src = [] then (none, src)
  else
    let (sign, pt) : Float32 × Bytes := if peek src = 45 then (-1, src.drop 1) else (1, src)
    let (value, _, pt) := floatDigits 0 1 pt
    if peek pt = 46 then
      let (fraction, divis, pt) := floatDigits 0 1 (pt.drop 1)
      (some (sign * (value + fraction / divis)), pt)
    else (some (sign * (value + 0)), pt)

/-- What stands up to the closing quote. -/
def quoted (text : Bytes) : Bytes → Option Bytes × Bytes
  | [] => (none, [])
  | byte :: rest =>
    if isEnd byte then (none, byte :: rest)
    else if byte = 34 then (if text = [] then none else some text, rest)
    else quoted (text ++ [byte]) rest

/-- `parse_attrib_str`; an empty string, or one that is not closed, leaves the destination alone. -/
def parseAttribStr : Bytes → Option Bytes × Bytes
  | [] => (none, [])
  | byte :: rest => if isEnd byte then (none, byte :: rest) else if byte = 34 then quoted [] rest else parseAttribStr rest

def hexDigit (byte : UInt8) : Option UInt8 :=
  if 48 ≤ byte ∧ byte ≤ 57 then some (byte - 48)
  else if 97 ≤ byte ∧ byte ≤ 102 then some (byte - 97 + 10)
  else if 65 ≤ byte ∧ byte ≤ 70 then some (byte - 65 + 10)
  else none

/-- The data that is there goes on behind its first zero only (`strlen`). -/
def appendData (dest : Option Bytes) (buffer : Bytes) : Option Bytes :=
  match dest with
  | none => some buffer
  | some str => some (str.takeWhile (· ≠ 0) ++ buffer)

/-- The loop of `parse_attrib_data`, with the upper half of a byte that is not complete. -/
def hexDigits (dest : Option Bytes) (buffer : Bytes) (upper : Option UInt8) : Bytes → Option Bytes × Bytes
  | [] => (if buffer = [] then dest else appendData dest buffer, [])
  | byte :: rest =>
    match hexDigit byte, upper with
    | none, _ => (if buffer = [] then dest else appendData dest buffer, byte :: rest)
    | some digit, none => hexDigits dest buffer (some digit) rest
    | some digit, some upper =>
      let buffer := buffer ++ [upper * 16 + digit]
      if buffer.length = 16 then hexDigits (appendData dest buffer) [] none rest else hexDigits dest buffer none rest

/-- `parse_attrib_data` -/
def parseAttribData (dest : Option Bytes) : Bytes → Option Bytes × Bytes
  | 48 :: mark :: rest => if mark = 120 ∨ mark = 88 then hexDigits dest [] none rest else (dest, 48 :: mark :: rest)
  | src => (dest, src)

structure Resolution where
  width : BitVec 32
  height : BitVec 32
deriving DecidableEq, Repr

/-- `parse_resolution` -/
def parseResolution (src : Bytes) : Option Resolution × Bytes :=
  if src = [] then (none, src)
  else
    let (width, pt) := parseStrToInt src
    if peek pt = 120 then
      let (height, pt) := parseStrToInt (pt.drop 1)
      (some ⟨width.getD 0, height.getD 0⟩, pt)
    else (some ⟨width.getD 0, 0⟩, pt)

end Values

section Attributes
variable {α : Type}

/-- How what stands behind a name goes into an object, and where that leaves the pointer. -/
abbrev Value (α : Type) := α → Bytes → Option (α × Bytes)

structure Attribute (α : Type) where
  name : Bytes
  value : Value α

/-- Behind the sign that follows the name. -/
def assigned {β : Type} (parse : Bytes → Option β × Bytes) (set : α → β → α) : Value α := fun dest pt => do
  let pt ← next pt
  let (value, pt) := parse pt
  return (value.elim dest (set dest), pt)

/-- The first of the words that is there. -/
def chosen {β : Type} (words : List (Bytes × β)) (otherwise : Option β) (pt : Bytes) : Option β × Bytes :=
  match words.find? fun word => word.1.isPrefixOf pt with
  | some (word, value) => (some value, pt.drop word.length)
  | none => (otherwise, pt)

def flag : Bytes → Option Bool × Bytes := chosen [(ascii "YES", true), (ascii "NO", false)] none

/-- A chain of `EQUAL`. -/
def parseTag (tags : List (Attribute α)) : Value α := fun dest pt =>
  match tags.find? fun tag => tag.name.isPrefixOf pt with
  | some tag => tag.value dest (pt.drop tag.name.length)
  | none => some (dest, pt)

/-- The loop over the attributes of a line, which goes on by a byte where no attribute is. -/
def parseAttributes (tags : List (Attribute α)) : Nat → Value α
  | 0, _, _ => none
  | _ + 1, dest, [] => some (dest, [])
  | fuel + 1, dest, byte :: rest =>
    if isEnd byte then some (dest, byte :: rest)
    else if byte = 44 ∨ byte = 61 ∨ byte = 58 then parseAttributes tags fuel dest rest
    else do
      let (dest, left) ← parseTag tags dest (byte :: rest)
      parseAttributes tags fuel dest (if left.length < rest.length + 1 then left else rest)

def parseLine (tags : List (Attribute α)) : Value α := fun dest pt => parseAttributes tags (pt.length + 1) dest pt

end Attributes

section Objects

inductive MediaType where
  | none
  | video
  | audio
  | subtitles
  | closedCaptions
  | invalid
deriving DecidableEq, Repr

inductive InstreamId where
  | none
  | cc1
  | cc2
  | cc3
  | cc4
  | service
  | invalid
deriving DecidableEq, Repr

inductive HdcpLevel where
  | undefined
  | none
  | type0
deriving DecidableEq, Repr

inductive KeyMethod where
  | undefined
  | none
  | aes128
  | sampleAes
  | invalid
deriving DecidableEq, Repr

structure Media where
  type : MediaType := .none
  instreamId : InstreamId := .none
  serviceN : BitVec 32 := 0
  forced : Bool := false
  isDefault : Bool := false
  autoSelect : Bool := false
  name : Option Bytes := none
  groupId : Option Bytes := none
  language : Option Bytes := none
  assocLanguage : Option Bytes := none
  uri : Option Bytes := none
  characteristics : Option Bytes := none
  channels : Option Bytes := none

structure StreamInf where
  programId : BitVec 32 := 0
  hdcpLevel : HdcpLevel := .undefined
  bandwidth : Float32 := 0
  avgBandwidth : Float32 := 0
  frameRate : Float32 := 0
  codecs : Option Bytes := none
  video : Option Bytes := none
  audio : Option Bytes := none
  uri : Option Bytes := none
  subtitles : Option Bytes := none
  closedCaptions : Option Bytes := none
  resolution : Resolution := ⟨0, 0⟩

structure IframeStreamInf where
  programId : BitVec 32 := 0
  hdcpLevel : HdcpLevel := .undefined
  bandwidth : Float32 := 0
  avgBandwidth : Float32 := 0
  frameRate : Float32 := 0
  codecs : Option Bytes := none
  video : Option Bytes := none
  uri : Option Bytes := none
  resolution : Resolution := ⟨0, 0⟩

structure SessionData where
  dataId : Option Bytes := none
  value : Option Bytes := none
  uri : Option Bytes := none
  language : Option Bytes := none

structure HlsKey where
  method : KeyMethod := .undefined
  uri : Option Bytes := none
  iv : Option Bytes := none
  keyFormat : Option Bytes := none
  keyFormatVersions : Option Bytes := none

structure Start where
  timeOffset : Float32 := 0
  precise : Bool := false

/-- `master_t`, whose own URI is never set. -/
structure Master where
  version : BitVec 32 := 0
  m3u : Bool := false
  independentSegments : Bool := false
  start : Start := {}
  sessionData : List SessionData := []
  media : List Media := []
  streamInfs : List StreamInf := []
  iframeStreamInfs : List IframeStreamInf := []
  customTags : List Bytes := []
  sessionKeys : List HlsKey := []
  nbSessionKeys : BitVec 32 := 0

end Objects

section Tags

def hdcpLevel : Bytes → Option HdcpLevel × Bytes := chosen [(ascii "TYPE-0", .type0), (ascii "NONE", .none)] none

/-- Behind the sign and the quote that follow the name. -/
def instreamId : Value Media := fun dest pt => do
  let pt ← next pt
  let pt ← next pt
  match chosen [(ascii "CC1", InstreamId.cc1), (ascii "CC2", .cc2), (ascii "CC3", .cc3), (ascii "CC4", .cc4),
      (ascii "SERVICE", .service)] (some .invalid) pt with
  | (some .service, pt) =>
    let (serviceN, pt) := parseStrToInt pt
    return ({ dest with instreamId := .service, serviceN := serviceN.getD dest.serviceN }, pt)
  | (id, pt) => return ({ dest with instreamId := id.getD dest.instreamId }, pt)

/-- The tags of `parse_media_tag`. -/
def mediaTags : List (Attribute Media) :=
  [⟨ascii "TYPE", assigned (chosen [(ascii "VIDEO", .video), (ascii "AUDIO", .audio), (ascii "SUBTITLES", .subtitles),
      (ascii "CLOSED-CAPTIONS", .closedCaptions)] (some .invalid)) fun dest type => { dest with type }⟩,
    ⟨ascii "GROUP-ID", assigned parseAttribStr fun dest groupId => { dest with groupId }⟩,
    ⟨ascii "NAME", assigned parseAttribStr fun dest name => { dest with name }⟩,
    ⟨ascii "AUTOSELECT", assigned flag fun dest autoSelect => { dest with autoSelect }⟩,
    ⟨ascii "FORCED", assigned flag fun dest forced => { dest with forced }⟩,
    ⟨ascii "DEFAULT", assigned flag fun dest isDefault => { dest with isDefault }⟩,
    ⟨ascii "LANGUAGE", assigned parseAttribStr fun dest language => { dest with language }⟩,
    ⟨ascii "ASSOC-LANGUAGE", assigned parseAttribStr fun dest assocLanguage => { dest with assocLanguage }⟩,
    ⟨ascii "URI", assigned parseAttribStr fun dest uri => { dest with uri }⟩,
    ⟨ascii "INSTREAM-ID", instreamId⟩,
    ⟨ascii "CHARACTERISTICS", assigned parseAttribStr fun dest characteristics => { dest with characteristics }⟩,
    ⟨ascii "CHANNELS", assigned parseAttribStr fun dest channels => { dest with channels }⟩]

/-- `NONE` without quotes is a value as well. -/
def closedCaptions (pt : Bytes) : Option Bytes × Bytes :=
  if (ascii "NONE").isPrefixOf pt then (some (ascii "NONE"), pt.drop 4) else parseAttribStr pt

/-- The tags of `parse_stream_inf_tag`. -/
def streamInfTags : List (Attribute StreamInf) :=
  [⟨ascii "PROGRAM-ID", assigned parseStrToInt fun dest programId => { dest with programId }⟩,
    ⟨ascii "BANDWIDTH", assigned parseStrToFloat fun dest bandwidth => { dest with bandwidth }⟩,
    ⟨ascii "AVERAGE-BANDWIDTH", assigned parseStrToFloat fun dest avgBandwidth => { dest with avgBandwidth }⟩,
    ⟨ascii "CODECS", assigned parseAttribStr fun dest codecs => { dest with codecs }⟩,
    ⟨ascii "RESOLUTION", assigned parseResolution fun dest resolution => { dest with resolution }⟩,
    ⟨ascii "AUDIO", assigned parseAttribStr fun dest audio => { dest with audio }⟩,
    ⟨ascii "VIDEO", assigned parseAttribStr fun dest video => { dest with video }⟩,
    ⟨ascii "SUBTITLES", assigned parseAttribStr fun dest subtitles => { dest with subtitles }⟩,
    ⟨ascii "CLOSED-CAPTIONS", assigned closedCaptions fun dest text => { dest with closedCaptions := text }⟩,
    ⟨ascii "FRAME-RATE", assigned parseStrToFloat fun dest frameRate => { dest with frameRate }⟩,
    ⟨ascii "HDCP-LEVEL", assigned hdcpLevel fun dest level => { dest with hdcpLevel := level }⟩]

/-- The tags of `parse_iframe_stream_inf_tag`. -/
def iframeStreamInfTags : List (Attribute IframeStreamInf) :=
  [⟨ascii "PROGRAM-ID", assigned parseStrToInt fun dest programId => { dest with programId }⟩,
    ⟨ascii "BANDWIDTH", assigned parseStrToFloat fun dest bandwidth => { dest with bandwidth }⟩,
    ⟨ascii "AVERAGE-BANDWIDTH", assigned parseStrToFloat fun dest avgBandwidth => { dest with avgBandwidth }⟩,
    ⟨ascii "CODECS", assigned parseAttribStr fun dest codecs => { dest with codecs }⟩,
    ⟨ascii "RESOLUTION", assigned parseResolution fun dest resolution => { dest with resolution }⟩,
    ⟨ascii "VIDEO", assigned parseAttribStr fun dest video => { dest with video }⟩,
    ⟨ascii "URI", assigned parseAttribStr fun dest uri => { dest with uri }⟩,
    ⟨ascii "FRAME-RATE", assigned parseStrToFloat fun dest frameRate => { dest with frameRate }⟩,
    ⟨ascii "HDCP-LEVEL", assigned hdcpLevel fun dest level => { dest with hdcpLevel := level }⟩]

/-- The tags of `parse_session_data_tag`. -/
def sessionDataTags : List (Attribute SessionData) :=
  [⟨ascii "DATA-ID", assigned parseAttribStr fun dest dataId => { dest with dataId }⟩,
    ⟨ascii "VALUE", assigned parseAttribStr fun dest value => { dest with value }⟩,
    ⟨ascii "URI", assigned parseAttribStr fun dest uri => { dest with uri }⟩,
    ⟨ascii "LANGUAGE", assigned parseAttribStr fun dest language => { dest with language }⟩]

/-- The tags of `parse_key_tag`. -/
def keyTags : List (Attribute HlsKey) :=
  [⟨ascii "METHOD", assigned (chosen [(ascii "NONE", .none), (ascii "AES-128", .aes128), (ascii "SAMPLE-AES", .sampleAes)]
      (some .invalid)) fun dest method => { dest with method }⟩,
    ⟨ascii "URI", assigned parseAttribStr fun dest uri => { dest with uri }⟩,
    ⟨ascii "IV", fun dest pt => do
      let pt ← next pt
      let (iv, pt) := parseAttribData dest.iv pt
      return ({ dest with iv }, pt)⟩,
    ⟨ascii "KEYFORMATVERSIONS", assigned parseAttribStr fun dest versions => { dest with keyFormatVersions := versions }⟩,
    ⟨ascii "KEYFORMAT", assigned parseAttribStr fun dest keyFormat => { dest with keyFormat }⟩]

def startTags : List (Attribute Start) :=
  [⟨ascii "TIME-OFFSET", assigned parseStrToFloat fun dest timeOffset => { dest with timeOffset }⟩,
    ⟨ascii "PRECISE", assigned flag fun dest precise => { dest with precise }⟩]

/-- The loop of `parse_start`, which looks behind a colon before it looks for the end of the line again. -/
def parseStart : Nat → Value Start
  | 0, _, _ => none
  | fuel + 1, dest, pt =>
    if isEnd (peek pt) then some (dest, pt)
    else
      let pt := if peek pt = 58 then pt.drop 1 else pt
      match startTags.find? fun tag => tag.name.isPrefixOf pt with
      | some tag => do
        let (dest, pt) ← tag.value dest (pt.drop tag.name.length)
        parseStart fuel dest pt
      | none => do
        let pt ← next pt
        parseStart fuel dest pt

end Tags

section Playlist

/-- The URI of a stream is the line below. -/
def parseStream : Value Master := fun dest pt => do
  let (streamInf, pt) ← parseLine streamInfTags {} pt
  let pt := (pt.dropWhile fun byte => byte ≠ 10 ∧ byte ≠ 0)
  let pt := if peek pt ≠ 0 then pt.drop 1 else pt
  let (path, pt) := parseLineToStr pt
  return ({ dest with streamInfs := dest.streamInfs ++ [{ streamInf with uri := path }] }, pt)

/-- The tags of `parse_master_tag`. -/
def masterTags : List (Attribute Master) :=
  [⟨ascii "EXTM3U", fun dest pt => some ({ dest with m3u := true }, pt)⟩,
    ⟨ascii "EXT-X-MEDIA", fun dest pt => do
      let (media, pt) ← parseLine mediaTags {} pt
      return ({ dest with media := dest.media ++ [media] }, pt)⟩,
    ⟨ascii "EXT-X-VERSION", assigned parseStrToInt fun dest version => { dest with version }⟩,
    ⟨ascii "EXT-X-INDEPENDENT-SEGMENTS", fun dest pt => some ({ dest with independentSegments := true }, pt)⟩,
    ⟨ascii "EXT-X-STREAM-INF", parseStream⟩,
    ⟨ascii "EXT-X-I-FRAME-STREAM-INF", fun dest pt => do
      let (streamInf, pt) ← parseLine iframeStreamInfTags {} pt
      return ({ dest with iframeStreamInfs := dest.iframeStreamInfs ++ [streamInf] }, pt)⟩,
    ⟨ascii "EXT-X-SESSION-DATA", fun dest pt => do
      let (sessionData, pt) ← parseLine sessionDataTags {} pt
      return ({ dest with sessionData := dest.sessionData ++ [sessionData] }, pt)⟩,
    ⟨ascii "EXT-X-START", fun dest pt => do
      let pt ← next pt
      let (start, pt) ← parseStart (pt.length + 1) dest.start pt
      return ({ dest with start }, pt)⟩,
    ⟨ascii "EXT-X-SESSION-KEY", fun dest pt => do
      let pt ← next pt
      let (key, pt) ← parseLine keyTags {} pt
      return ({ dest with sessionKeys := dest.sessionKeys ++ [key], nbSessionKeys := dest.nbSessionKeys + 1 }, pt)⟩]

/-- `parse_master_tag`; a tag that is not known is kept as it is. -/
def parseMasterTag : Value Master := fun dest pt =>
  match masterTags.find? fun tag => tag.name.isPrefixOf pt with
  | some tag => tag.value dest (pt.drop tag.name.length)
  | none =>
    let (customTag, pt) := parseLineToStr pt
    some ({ dest with customTags := dest.customTags ++ customTag.toList }, pt)

/-- The loop of `hlsparse_master`. The functions give the distances they go as an int: beyond that nothing is said. -/
def masterLoop : Nat → Value Master
  | 0, _, _ => none
  | _ + 1, dest, [] => some (dest, [])
  | fuel + 1, dest, byte :: rest =>
    if byte = 0 then some (dest, byte :: rest)
    else if byte = 35 then do
      let (dest, left) ← parseMasterTag dest rest
      if rest.length - left.length < 2 ^ 31 then masterLoop fuel dest left else none
    else masterLoop fuel dest rest

/-- `hlsparse_master`, for a playlist that is initialized. -/
def hlsparseMaster (src : Bytes) : Option (BitVec 32 × Master) := do
  let (dest, left) ← masterLoop (src.length + 1) {} src
  return (BitVec.ofNat 32 (src.length - left.length), dest)

/-- What the store takes from a playlist. -/
def playlist (data : Bytes) : Option MediaDataStore.MasterPlaylist :=
  (hlsparseMaster data).bind fun (res, master) =>
    if res ≠ 0 then some ⟨master.media.map Media.uri, master.streamInfs.map StreamInf.uri⟩ else none

end Playlist

end Apsdk.HlsParser
