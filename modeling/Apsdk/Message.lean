import Apsdk.Library.SortedMap
import Apsdk.Library.Text

/-! RTSP and HTTP messages, and the functions that build them up. -/

namespace Apsdk
open Library

abbrev HeaderMap := SortedMap Bytes Bytes

def HEADER_CONTENT_TYPE : Bytes := ascii "Content-Type"
def HEADER_CONTENT_LENGTH : Bytes := ascii "Content-Length"
def TEXT_APPLE_PLIST_XML : Bytes := ascii "text/x-apple-plist+xml"

def RN_LINE_BREAK : Bytes := [13, 10]
def RNRN_LINE_BREAK : Bytes := [13, 10, 13, 10]
def CHAR_BLANK : Bytes := [32]
def CHAR_COLON : Bytes := [58]

/-- `xtxp_message`; `contentLength` is a `size_t`. -/
structure Message where
  schemeVersion : Bytes
  contentLength : Nat
  contentType : Bytes
  headers : HeaderMap
  content : Bytes
deriving DecidableEq

/-- A constructed message. -/
def Message.new (schemeVersion : Bytes) : Message := ⟨schemeVersion, 0, [], .empty, []⟩

structure Request extends Message where
  method : Bytes
  uri : Bytes
deriving DecidableEq

/-- The numbers of `status_type_e`. -/
def switchingProtocols : Int := 101
def ok : Int := 200
def badRequest : Int := 400
def notFound : Int := 404
def methodNotAllowed : Int := 405
def internalError : Int := 500

/-- `statusCode` is a number, since the parser casts whatever it reads to `status_type_t`. -/
structure Response extends Message where
  statusCode : Int
  statusText : Bytes
deriving DecidableEq

def Request.new (schemeVersion method uri : Bytes) : Request := ⟨.new schemeVersion, method, uri⟩

def Response.new (schemeVersion : Bytes) : Response := ⟨.new schemeVersion, ok, ascii "OK"⟩

/-- `g_status_code_sting_map`. -/
def statusCodeString (code : Int) : Option Bytes :=
  if code = switchingProtocols then some (ascii "Switching Protocols")
  else if code = ok then some (ascii "OK")
  else if code = badRequest then some (ascii "Bad Request")
  else if code = notFound then some (ascii "Not Found")
  else if code = methodNotAllowed then some (ascii "Method Not Allowed")
  else if code = internalError then some (ascii "Internal Error")
  else none

def Response.withStatus (res : Response) (code : Int) : Response :=
  { res with statusCode := code, statusText := (statusCodeString code).getD (ascii "No Description") }

namespace Message

def withContentType (message : Message) (type : Bytes) : Message := { message with contentType := type }

def withHeader (message : Message) (name value : Bytes) : Message :=
  { message with headers := message.headers.insert name value }

/-- The overload for strings, which appends to the content. -/
def withContentString (message : Message) (data : Bytes) : Message :=
  { message with content := message.content ++ data, contentLength := data.length }

/-- The overload for byte vectors. -/
def withContentVector (message : Message) (data : Bytes) : Message :=
  { message with content := data, contentLength := data.length }

/-- The overload for a pointer and the number of bytes behind it, which appends as well. -/
def withContentPointer (message : Message) (data : Bytes) : Message :=
  { message with content := message.content ++ data, contentLength := data.length }

def serializeHeader (name value : Bytes) : Bytes := name ++ CHAR_COLON ++ CHAR_BLANK ++ value ++ RN_LINE_BREAK

def serialize (message : Message) : Bytes :=
  message.headers.entries.flatMap (fun header => serializeHeader header.1 header.2) ++
    serializeHeader HEADER_CONTENT_LENGTH (decimal message.contentLength) ++
    (if message.contentType = [] then [] else serializeHeader HEADER_CONTENT_TYPE message.contentType) ++
    RN_LINE_BREAK ++ message.content

end Message

def Request.serialize (req : Request) : Bytes :=
  req.method ++ CHAR_BLANK ++ req.uri ++ CHAR_BLANK ++ req.schemeVersion ++ RN_LINE_BREAK ++ req.toMessage.serialize

/-- An `int` as a stream prints it. -/
def printInt : Int → Bytes
  | .ofNat n => decimal n
  | .negSucc n => 45 :: decimal (n + 1)

def Response.serialize (res : Response) : Bytes :=
  res.schemeVersion ++ CHAR_BLANK ++ printInt res.statusCode ++ CHAR_BLANK ++ res.statusText ++ RN_LINE_BREAK ++
    res.toMessage.serialize

end Apsdk
