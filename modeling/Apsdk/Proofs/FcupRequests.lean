import Apsdk.Library.XmlText
import Apsdk.MediaDataStore

/-! The property list that asks for a URI takes the URI and the session id as they
are. A reader finds them in it just when neither needs a reference. -/

namespace Apsdk.MediaDataStore
open Library

section Parts

/-- The body up to the number of the request. -/
def fcupHead : Bytes :=
  line "<?xml version=\"1.0\" encoding=\"UTF-8\"?>" ++
  line "<!DOCTYPE plist PUBLIC \"-//Apple//DTD PLIST 1.0//EN\" \"http://www.apple.com/DTDs/PropertyList-1.0.dtd\">" ++
  line "<plist version=\"1.0\">" ++
  line "\t<dict>" ++
  line "\t\t<key>sessionID</key>" ++
  line "\t\t<integer>1</integer>" ++
  line "\t\t<key>type</key>" ++
  line "\t\t<string>unhandledURLRequest</string>" ++
  line "\t\t<key>request</key>" ++
  line "\t\t<dict>" ++
  line "\t\t\t<key>FCUP_Response_ClientInfo</key>" ++
  line "\t\t\t<integer>1</integer>" ++
  line "\t\t\t<key>FCUP_Response_ClientRef</key>" ++
  line "\t\t\t<integer>40030004</integer>" ++
  line "\t\t\t<key>FCUP_Response_RequestID</key>" ++
  ascii "\t\t\t<integer>"

/-- Between the number and the URI. -/
def fcupToUri : Bytes := line "</integer>" ++ line "\t\t\t<key>FCUP_Response_URL</key>" ++ ascii "\t\t\t<string>"

/-- Between the URI and the session id. -/
def fcupToSession : Bytes :=
  line "</string>" ++
  line "\t\t\t<key>sessionID</key>" ++
  line "\t\t\t<integer>1</integer>" ++
  line "\t\t\t<key>FCUP_Response_Headers</key>" ++
  line "\t\t\t<dict>" ++
  line "\t\t\t\t<key>X-Playback-Session-Id</key>" ++
  ascii "\t\t\t\t<string>"

def fcupTail : Bytes :=
  line "</string>" ++
  line "\t\t\t\t<key>User-Agent</key>" ++
  line "\t\t\t\t<string>AppleCoreMedia/1.0.0.11B554a (Apple TV; U; CPU OS 7_0_4 like Mac OS X; en_us)</string>" ++
  line "\t\t\t</dict>" ++
  line "\t\t</dict>" ++
  line "\t</dict>" ++
  ascii "</plist>"

variable (fcup : FcupRequest)

theorem body_eq : fcup.body = fcupHead ++ (ascii (toString fcup.requestId.toNat) ++
    (fcupToUri ++ (fcup.uri ++ (fcupToSession ++ (fcup.sessionId ++ fcupTail))))) := by
  unfold FcupRequest.body fcupHead fcupToUri fcupToSession fcupTail
  with_reducible simp only [List.append_assoc]

def URL_KEY : Bytes := ascii "FCUP_Response_URL"

def SESSION_KEY : Bytes := ascii "X-Playback-Session-Id"

/-- The number of a request has no tags. -/
theorem number_untagged (number : Nat) : (60 : UInt8) ∉ ascii (toString number) := by
  rw [ascii_toString]
  intro member
  have digit := decimal_digits number 60 member
  exact absurd digit.2 (by decide)

theorem url_read : stringBehind URL_KEY fcup.body =
    stringContent (fcup.uri ++ (fcupToSession ++ (fcup.sessionId ++ fcupTail))) := by
  have head : clear (keyElement URL_KEY) fcupHead = true := by decide +kernel
  have number : clear (keyElement URL_KEY) (ascii (toString fcup.requestId.toNat)) = true :=
    clear_of_absent _ (number_untagged _)
  have found : behind (keyElement URL_KEY) fcupToUri = some (ascii "\n\t\t\t" ++ (ascii "<string>" ++ [])) := by decide +kernel
  refine stringBehind_eq (ascii "\n\t\t\t") ?_ (by decide)
  rw [body_eq, behind_clear head, behind_clear number, behind_append found, List.append_assoc, List.append_assoc,
    List.nil_append]

theorem session_read (untagged : 60 ∉ fcup.uri) : stringBehind SESSION_KEY fcup.body =
    stringContent (fcup.sessionId ++ fcupTail) := by
  have head : clear (keyElement SESSION_KEY) fcupHead = true := by decide +kernel
  have number : clear (keyElement SESSION_KEY) (ascii (toString fcup.requestId.toNat)) = true :=
    clear_of_absent _ (number_untagged _)
  have middle : clear (keyElement SESSION_KEY) fcupToUri = true := by decide +kernel
  have uri : clear (keyElement SESSION_KEY) fcup.uri = true := clear_of_absent _ untagged
  have found : behind (keyElement SESSION_KEY) fcupToSession = some (ascii "\n\t\t\t\t" ++ (ascii "<string>" ++ [])) := by
    decide +kernel
  refine stringBehind_eq (ascii "\n\t\t\t\t") ?_ (by decide)
  rw [body_eq, behind_clear head, behind_clear number, behind_clear middle, behind_clear uri, behind_append found,
    List.append_assoc, List.append_assoc, List.nil_append]

end Parts

/-- A reader of the body finds the URI and the session id in it. -/
structure Names (fcup : FcupRequest) : Prop where
  url : ∃ text, TextBehind URL_KEY fcup.body text ∧ utf8 text = fcup.uri
  session : ∃ text, TextBehind SESSION_KEY fcup.body text ∧ utf8 text = fcup.sessionId

theorem url_named_iff (fcup : FcupRequest) :
    (∃ text, TextBehind URL_KEY fcup.body text ∧ utf8 text = fcup.uri) ↔ Plain fcup.uri := by
  have closed : ascii "</string>" <+: fcupToSession ++ (fcup.sessionId ++ fcupTail) :=
    (List.isPrefixOf_iff_prefix.mp (by decide +kernel : (ascii "</string>").isPrefixOf fcupToSession = true)).trans
      (List.prefix_append _ _)
  exact value_named_iff (url_read fcup) closed

/-- A request names the URI that it asks for and its session just when both are plain. -/
theorem request_names_iff (fcup : FcupRequest) : Names fcup ↔ Plain fcup.uri ∧ Plain fcup.sessionId := by
  have closed : ascii "</string>" <+: fcupTail := List.isPrefixOf_iff_prefix.mp (by decide +kernel)
  constructor
  · intro names
    have uri := (url_named_iff fcup).mp names.url
    exact ⟨uri, (value_named_iff (session_read fcup uri.untagged) closed).mp names.session⟩
  · intro ⟨uri, session⟩
    exact ⟨(url_named_iff fcup).mpr uri, (value_named_iff (session_read fcup uri.untagged) closed).mpr session⟩

/-- A query with two parameters has an ampersand, which the reader takes for the beginning of a reference. -/
theorem query_not_named : ¬ Names ⟨1, ascii "mlhls://localhost/index.m3u8?a=1&b=2", ascii "session"⟩ := by
  intro names
  exact ((url_named_iff _).mp names.url).unreferenced (by decide +kernel)

end Apsdk.MediaDataStore
