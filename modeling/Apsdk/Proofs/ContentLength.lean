import Apsdk.Proofs.SerializedHead
import Mathlib.Data.List.Induction

/-! The length that a message states against the body that it carries. Two of the three
overloads of `with_content` append to the content, and all of them state the length of
what they are given. -/

namespace Apsdk
open Library

/-- The calls that build a message up. What a pointer refers to is as long as an `int` can say. -/
inductive BuilderCall where
  | contentString (data : Bytes)
  | contentVector (data : Bytes)
  | contentPointer (data : Bytes) (int : data.length < 2 ^ 31)
  | header (name value : Bytes)
  | contentType (type : Bytes)
  | status (code : Int)

namespace BuilderCall

/-- No byte has been given since the content was replaced, the latest call first. -/
def Blank : List BuilderCall → Prop
  | [] => True
  | .contentString data :: earlier => data = [] ∧ Blank earlier
  | .contentVector data :: _ => data = []
  | .contentPointer data _ :: earlier => data = [] ∧ Blank earlier
  | .header .. :: earlier => Blank earlier
  | .contentType _ :: earlier => Blank earlier
  | .status _ :: earlier => Blank earlier

/-- The last call that gives content either replaces what was there, or finds nothing. -/
def Stated : List BuilderCall → Prop
  | [] => True
  | .contentString _ :: earlier => Blank earlier
  | .contentVector _ :: _ => True
  | .contentPointer _ _ :: earlier => Blank earlier
  | .header .. :: earlier => Stated earlier
  | .contentType _ :: earlier => Stated earlier
  | .status _ :: earlier => Stated earlier

end BuilderCall

/-- A status is no part of what messages have in common. -/
def Message.apply (message : Message) : BuilderCall → Message
  | .contentString data => message.withContentString data
  | .contentVector data => message.withContentVector data
  | .contentPointer data _ => message.withContentPointer data
  | .header name value => message.withHeader name value
  | .contentType type => message.withContentType type
  | .status _ => message

def Response.apply (res : Response) : BuilderCall → Response
  | .status code => res.withStatus code
  | call => { res with toMessage := res.toMessage.apply call }

def Message.build (schemeVersion : Bytes) (calls : List BuilderCall) : Message := calls.foldl Message.apply (.new schemeVersion)

def Response.build (schemeVersion : Bytes) (calls : List BuilderCall) : Response := calls.foldl Response.apply (.new schemeVersion)

namespace Message
variable (schemeVersion : Bytes) (calls : List BuilderCall)

/-- The header that `serialize` writes by itself states the number of bytes that it appends. -/
def StatesBody (message : Message) : Prop :=
  message.serialize = message.headers.entries.flatMap (fun header => serializeHeader header.1 header.2) ++
    serializeHeader HEADER_CONTENT_LENGTH (decimal message.content.length) ++
    (if message.contentType = [] then [] else serializeHeader HEADER_CONTENT_TYPE message.contentType) ++
    RN_LINE_BREAK ++ message.content

theorem build_concat (call : BuilderCall) : build schemeVersion (calls ++ [call]) = (build schemeVersion calls).apply call :=
  List.foldl_concat ..

theorem build_blank_iff : (build schemeVersion calls).content = [] ↔ BuilderCall.Blank calls.reverse := by
  induction calls using List.reverseRecOn with
  | nil => exact iff_of_true rfl trivial
  | append_singleton earlier call ih =>
    rw [build_concat, List.reverse_concat]
    cases call with
    | contentString data | contentPointer data => exact List.append_eq_nil_iff.trans (and_comm.trans (and_congr_right' ih))
    | contentVector data => exact Iff.rfl
    | header | contentType | status => exact ih

theorem length_append_iff {first second : Bytes} : second.length = (first ++ second).length ↔ first = [] := by
  rw [List.length_append, ← List.length_eq_zero_iff]
  omega

theorem build_stated_iff : (build schemeVersion calls).contentLength = (build schemeVersion calls).content.length ↔
    BuilderCall.Stated calls.reverse := by
  induction calls using List.reverseRecOn with
  | nil => exact iff_of_true rfl trivial
  | append_singleton earlier call ih =>
    rw [build_concat, List.reverse_concat]
    cases call with
    | contentString data | contentPointer data => exact length_append_iff.trans (build_blank_iff schemeVersion earlier)
    | contentVector data => exact iff_of_true rfl trivial
    | header | contentType | status => exact ih

theorem decimal_inj {n m : Nat} : decimal n = decimal m ↔ n = m := by
  refine ⟨fun same => ?_, congrArg decimal⟩
  rw [← Parser.strtolDigits_decimal n, same, Parser.strtolDigits_decimal]

theorem statesBody_iff (message : Message) : message.StatesBody ↔ message.contentLength = message.content.length := by
  unfold StatesBody serialize serializeHeader
  simp only [List.append_assoc, List.append_cancel_left_eq, List.append_cancel_right_eq, decimal_inj]

end Message

theorem Response.build_toMessage (schemeVersion : Bytes) (calls : List BuilderCall) :
    (Response.build schemeVersion calls).toMessage = Message.build schemeVersion calls := by
  induction calls using List.reverseRecOn with
  | nil => rfl
  | append_singleton earlier call ih =>
    rw [Message.build_concat, ← ih, Response.build, List.foldl_concat]
    cases call <;> rfl

/-- The stated length is that of the content, and the header that is written that of the body
behind it, just when the last content given has replaced what was there or found nothing. -/
theorem content_length_stated_iff (schemeVersion : Bytes) (calls : List BuilderCall) :
    (Response.build schemeVersion calls).toMessage = Message.build schemeVersion calls ∧
    ((Message.build schemeVersion calls).contentLength = (Message.build schemeVersion calls).content.length ↔
      BuilderCall.Stated calls.reverse) ∧
    ((Message.build schemeVersion calls).StatesBody ↔ BuilderCall.Stated calls.reverse) := by
  have stated := Message.build_stated_iff schemeVersion calls
  exact ⟨Response.build_toMessage schemeVersion calls, stated, (Message.statesBody_iff _).trans stated⟩

/-- A string is appended to the one before, and its own length is stated. -/
theorem appended_string_not_stated : ¬ ∀ (schemeVersion : Bytes) (calls : List BuilderCall),
    (Message.build schemeVersion calls).contentLength = (Message.build schemeVersion calls).content.length := by
  intro all
  have same := all (ascii "RTSP/1.0") [.contentString (ascii "a"), .contentString (ascii "b")]
  exact absurd same (by decide +kernel)

end Apsdk
