import DBWrapper.Foundation.Bytes

/-!
# The reply of the HTTP server

A handler of `HttpServer` fills the buffer of its request by `setBody` and
`setChunk`; `setChunk` sends the buffer at once.  `mainCallback` starts the
reply when the handler has returned, sends what is left in the buffer and ends
the reply.

Both calls pass the user's string to `evbuffer_add_printf` as the format, with
no arguments behind it.
-/

namespace DBWrapper

open Foundation

namespace Translib

def percent : UInt8 := 37

/-- A NUL-terminated string. -/
structure CString where
  bytes : ByteString
  noNul : (0 : UInt8) ∉ bytes
  deriving DecidableEq, Repr

/-- What a format prints without arguments: two `%` print one, and every other
conversion is undefined. -/
def formatOutput : ByteString → Option ByteString
  | [] => some []
  | [last] => if last = percent then none else some [last]
  | byte :: next :: rest =>
      if byte ≠ percent then (formatOutput (next :: rest)).map (byte :: ·)
      else if next = percent then (formatOutput rest).map (percent :: ·)
      else none

/-- `evbuffer_add_printf`. -/
def evbufferAddPrintf (buffer format : ByteString) : Option ByteString :=
  (formatOutput format).map (buffer ++ ·)

/-- The calls of libevent that produce the answer to a request. -/
inductive ReplyCall where
  | addHeader (key value : ByteString)
  | sendReplyStart (code : Nat) (reason : ByteString)
  | sendReplyChunk (databuf : ByteString)
  | sendReplyEnd
  deriving DecidableEq, Repr

/-- `calls` records the calls that are made for the request. -/
structure HttpRequest where
  buffer : ByteString
  calls : List ReplyCall
  deriving DecidableEq, Repr

namespace HttpRequest

/-- The constructor. -/
def create : HttpRequest :=
  { buffer := [], calls := [] }

def record (request : HttpRequest) (call : ReplyCall) : HttpRequest :=
  { request with calls := request.calls ++ [call] }

/-- `evhttp_send_reply_chunk` sends the buffer and empties it. -/
def sendReplyChunk (request : HttpRequest) : HttpRequest :=
  { request.record (.sendReplyChunk request.buffer) with buffer := [] }

def setBody (request : HttpRequest) (content : CString) :
    Option (Bool × HttpRequest) :=
  (evbufferAddPrintf request.buffer content.bytes).map fun buffer =>
    (true, { request with buffer })

def setChunk (request : HttpRequest) (content : CString) :
    Option (Bool × HttpRequest) :=
  (evbufferAddPrintf request.buffer content.bytes).map fun buffer =>
    (true, { request with buffer }.sendReplyChunk)

end HttpRequest

/-- A call that a handler makes. -/
inductive HandlerCall where
  | setBody (content : CString)
  | setChunk (content : CString)
  deriving DecidableEq, Repr

namespace HandlerCall

def content : HandlerCall → CString
  | .setBody content => content
  | .setChunk content => content

def perform (request : HttpRequest) : HandlerCall → Option HttpRequest
  | .setBody content => (request.setBody content).map Prod.snd
  | .setChunk content => (request.setChunk content).map Prod.snd

end HandlerCall

namespace HttpServer

def connectionKey : ByteString := ascii "Connection"

def connectionValue : ByteString := ascii "keep-alive"

/-- `findHeaders` looks up the headers of the request. -/
def mainCallback (findHeaders : ByteString → Option ByteString)
    (handler : List HandlerCall) : Option (List ReplyCall) :=
  (handler.foldlM HandlerCall.perform HttpRequest.create).map fun request =>
    let request :=
      match findHeaders connectionKey with
      | none => request
      | some value =>
          if connectionValue.isPrefixOf value then
            request.record (.addHeader connectionKey connectionValue)
          else
            request
    let request := request.record (.sendReplyStart 200 (ascii "OK"))
    (request.sendReplyChunk.record .sendReplyEnd).calls

/-- Headers are no part of the sequence of reply calls. -/
def isReply : ReplyCall → Bool
  | .addHeader _ _ => false
  | _ => true

/-- One start, then the chunks with the body in them, then one end. -/
def OneReply (calls : List ReplyCall) (body : ByteString) : Prop :=
  ∃ (code : Nat) (reason : ByteString) (chunks : List ByteString),
    calls.filter isReply =
        .sendReplyStart code reason ::
          (chunks.map .sendReplyChunk ++ [.sendReplyEnd]) ∧
      chunks.flatten = body

end HttpServer

/-! ### What a format prints -/

theorem formatOutput_of_notMem
    {format : ByteString} (plain : percent ∉ format) :
    formatOutput format = some format := by
  induction format using formatOutput.induct with
  | case1 => rfl
  | case2 => exact (plain (List.mem_singleton_self _)).elim
  | case3 last literal => rw [formatOutput, if_neg literal]
  | case4 byte next rest literal induction =>
      rw [formatOutput, if_pos literal,
        induction (fun listed => plain (List.mem_cons_of_mem byte listed))]
      rfl
  | case5 byte rest conversion induction =>
      have same : byte = percent := by simpa using conversion
      rw [same] at plain
      exact (plain List.mem_cons_self).elim
  | case6 byte next rest conversion other =>
      have same : byte = percent := by simpa using conversion
      rw [same] at plain
      exact (plain List.mem_cons_self).elim

/-- A conversion loses a byte. -/
theorem formatOutput_shortens
    {format text : ByteString} (prints : formatOutput format = some text) :
    text.length ≤ format.length ∧
      (percent ∈ format → text.length < format.length) := by
  induction format using formatOutput.induct generalizing text with
  | case1 =>
      cases prints
      simp
  | case2 => simp [formatOutput] at prints
  | case3 last literal =>
      rw [formatOutput, if_neg literal] at prints
      cases prints
      refine ⟨Nat.le_refl _, ?_⟩
      intro listed
      exact (literal (List.mem_singleton.mp listed).symm).elim
  | case4 byte next rest literal induction =>
      rw [formatOutput, if_pos literal] at prints
      obtain ⟨later, printsLater, same⟩ := Option.map_eq_some_iff.mp prints
      obtain ⟨noLonger, shorter⟩ := induction printsLater
      rw [← same, List.length_cons, @List.length_cons _ byte]
      constructor
      · omega
      · intro listed
        have counted := shorter
          ((List.mem_cons.mp listed).resolve_left (Ne.symm literal))
        omega
  | case5 byte rest conversion induction =>
      rw [formatOutput, if_neg conversion, if_pos rfl] at prints
      obtain ⟨later, printsLater, same⟩ := Option.map_eq_some_iff.mp prints
      have noLonger := (induction printsLater).1
      rw [← same]
      simp only [List.length_cons]
      constructor
      · omega
      · intro _
        omega
  | case6 byte next rest conversion other =>
      rw [formatOutput, if_neg conversion, if_neg other] at prints
      cases prints

/-! ### What a handler does -/

/-- The strings of the calls, one behind the other. -/
def HandlerCall.body (handler : List HandlerCall) : ByteString :=
  handler.flatMap (·.content.bytes)

/-- The call only fills the buffer, and its string is no more than text. -/
def HandlerCall.Plain (call : HandlerCall) : Prop :=
  (∃ content, call = .setBody content) ∧ percent ∉ call.content.bytes

namespace HttpRequest

/-- What a handler leaves behind: the chunks that it has sent, and all that it
has printed, in the chunks and in the buffer. -/
structure Handled (request : HttpRequest) (handler : List HandlerCall)
    (final : HttpRequest) (chunks : List ByteString) (text : ByteString) :
    Prop where
  calls : final.calls = request.calls ++ chunks.map .sendReplyChunk
  printed : chunks.flatten ++ final.buffer = request.buffer ++ text
  unsent : chunks = [] ↔ ∀ call ∈ handler, ∃ content, call = .setBody content
  noLonger : text.length ≤ (HandlerCall.body handler).length
  shorter : (∃ call ∈ handler, percent ∈ call.content.bytes) →
    text.length < (HandlerCall.body handler).length
  plain : (∀ call ∈ handler, percent ∉ call.content.bytes) →
    text = HandlerCall.body handler

theorem Handled.refl (request : HttpRequest) :
    request.Handled [] request [] [] := by
  constructor <;> simp [HandlerCall.body]

theorem Handled.trans
    {request middle final : HttpRequest} {front back : List HandlerCall}
    {sent later : List ByteString} {text more : ByteString}
    (first : request.Handled front middle sent text)
    (second : middle.Handled back final later more) :
    request.Handled (front ++ back) final (sent ++ later) (text ++ more) := by
  have whole : HandlerCall.body (front ++ back) =
      HandlerCall.body front ++ HandlerCall.body back :=
    List.flatMap_append
  have frontNoLonger := first.noLonger
  have backNoLonger := second.noLonger
  constructor
  · rw [second.calls, first.calls, List.map_append, List.append_assoc]
  · calc
      (sent ++ later).flatten ++ final.buffer =
          sent.flatten ++ (later.flatten ++ final.buffer) := by
        rw [List.flatten_append, List.append_assoc]
      _ = sent.flatten ++ middle.buffer ++ more := by
        rw [second.printed, List.append_assoc]
      _ = request.buffer ++ (text ++ more) := by
        rw [first.printed, List.append_assoc]
  · rw [List.append_eq_nil_iff, first.unsent, second.unsent,
      List.forall_mem_append]
  · rw [whole, List.length_append, List.length_append]
    omega
  · intro converts
    obtain ⟨call, listed, converts⟩ := converts
    rw [whole, List.length_append, List.length_append]
    rcases List.mem_append.mp listed with inFront | inBack
    · have counted := first.shorter ⟨call, inFront, converts⟩
      omega
    · have counted := second.shorter ⟨call, inBack, converts⟩
      omega
  · intro plain
    obtain ⟨plainFront, plainBack⟩ := List.forall_mem_append.mp plain
    rw [whole, first.plain plainFront, second.plain plainBack]

/-- What a call does when its string has been printed. -/
def finish (request : HttpRequest) : HandlerCall → HttpRequest
  | .setBody _ => request
  | .setChunk _ => request.sendReplyChunk

theorem perform_eq (request : HttpRequest) (call : HandlerCall) :
    call.perform request =
      (formatOutput call.content.bytes).map fun text =>
        { request with buffer := request.buffer ++ text }.finish call := by
  cases call with
  | setBody content =>
      simp only [HandlerCall.perform, setBody, evbufferAddPrintf,
        Option.map_map]
      rfl
  | setChunk content =>
      simp only [HandlerCall.perform, setChunk, evbufferAddPrintf,
        Option.map_map]
      rfl

theorem finish_sends (request : HttpRequest) (call : HandlerCall) :
    ∃ sent : List ByteString,
      (request.finish call).calls =
          request.calls ++ sent.map .sendReplyChunk ∧
        sent.flatten ++ (request.finish call).buffer = request.buffer ∧
        (sent = [] ↔ ∃ content, call = .setBody content) := by
  cases call with
  | setBody content => exact ⟨[], by simp [finish]⟩
  | setChunk content =>
      exact ⟨[request.buffer], by simp [finish, sendReplyChunk, record]⟩

theorem handled_perform
    {request next : HttpRequest} {call : HandlerCall}
    (performed : call.perform request = some next) :
    ∃ sent text, request.Handled [call] next sent text := by
  rw [perform_eq] at performed
  obtain ⟨text, prints, same⟩ := Option.map_eq_some_iff.mp performed
  obtain ⟨sent, calls, printed, unsent⟩ :=
    finish_sends { request with buffer := request.buffer ++ text } call
  obtain ⟨noLonger, shorter⟩ := formatOutput_shortens prints
  have body : HandlerCall.body [call] = call.content.bytes := by
    simp [HandlerCall.body]
  rw [same] at calls printed
  refine ⟨sent, text, calls, printed, ?_, ?_, ?_, ?_⟩
  · rw [unsent, List.forall_mem_singleton]
  · rw [body]
    exact noLonger
  · intro converts
    obtain ⟨other, listed, converts⟩ := converts
    rw [List.mem_singleton.mp listed] at converts
    rw [body]
    exact shorter converts
  · intro plain
    have prints' := formatOutput_of_notMem
      (plain call (List.mem_singleton_self call))
    rw [prints] at prints'
    rw [body]
    exact Option.some.inj prints'

/-- Every call that a handler makes adds to what it has printed. -/
theorem handled_foldlM
    {request final : HttpRequest} {handler : List HandlerCall}
    (ran : handler.foldlM HandlerCall.perform request = some final) :
    ∃ sent text, request.Handled handler final sent text := by
  induction handler generalizing request with
  | nil =>
      cases ran
      exact ⟨[], [], .refl _⟩
  | cons call handler induction =>
      rw [List.foldlM_cons] at ran
      obtain ⟨next, performed, rest⟩ := Option.bind_eq_some_iff.mp ran
      obtain ⟨sent, text, first⟩ := handled_perform performed
      obtain ⟨later, more, second⟩ := induction rest
      exact ⟨sent ++ later, text ++ more, first.trans second⟩

/-- A handler without conversions runs through. -/
theorem foldlM_of_plain
    {handler : List HandlerCall}
    (plain : ∀ call ∈ handler, percent ∉ call.content.bytes)
    (request : HttpRequest) :
    ∃ final, handler.foldlM HandlerCall.perform request = some final := by
  induction handler generalizing request with
  | nil => exact ⟨request, rfl⟩
  | cons call handler induction =>
      obtain ⟨plainFirst, plainRest⟩ := List.forall_mem_cons.mp plain
      rw [List.foldlM_cons, perform_eq, formatOutput_of_notMem plainFirst]
      exact induction plainRest _

end HttpRequest

/-! ### The whole reply -/

namespace HttpServer

theorem filter_isReply_chunks (chunks : List ByteString) :
    (chunks.map ReplyCall.sendReplyChunk).filter isReply =
      chunks.map ReplyCall.sendReplyChunk := by
  apply List.filter_eq_self.mpr
  intro call listed
  obtain ⟨databuf, _, rfl⟩ := List.mem_map.mp listed
  rfl

/-- The reply calls are the chunks of the handler, and then one start, one
chunk and one end. -/
theorem mainCallback_eq_some
    {findHeaders : ByteString → Option ByteString}
    {handler : List HandlerCall} {calls : List ReplyCall}
    (replies : mainCallback findHeaders handler = some calls) :
    ∃ request sent text,
      HttpRequest.create.Handled handler request sent text ∧
        calls.filter isReply =
          sent.map .sendReplyChunk ++
            [.sendReplyStart 200 (ascii "OK"), .sendReplyChunk request.buffer,
              .sendReplyEnd] := by
  obtain ⟨request, ran, same⟩ := Option.map_eq_some_iff.mp replies
  obtain ⟨sent, text, handled⟩ := HttpRequest.handled_foldlM ran
  refine ⟨request, sent, text, handled, ?_⟩
  have made : request.calls = sent.map .sendReplyChunk := handled.calls
  have chunks := filter_isReply_chunks sent
  rw [← same]
  simp only [HttpRequest.record, HttpRequest.sendReplyChunk]
  split
  · simp [made, chunks, isReply]
  · split
    · simp [made, chunks, isReply]
    · simp [made, chunks, isReply]

theorem chunks_eq_singleton
    {code code' : Nat} {reason reason' databuf : ByteString}
    {chunks : List ByteString}
    (sequence :
      [.sendReplyStart code reason, .sendReplyChunk databuf, .sendReplyEnd] =
        ReplyCall.sendReplyStart code' reason' ::
          (chunks.map .sendReplyChunk ++ [.sendReplyEnd])) :
    chunks = [databuf] := by
  obtain ⟨_, rest⟩ := List.cons.inj sequence
  have parts : [ReplyCall.sendReplyChunk databuf] =
      chunks.map .sendReplyChunk :=
    List.append_cancel_right
      (show [ReplyCall.sendReplyChunk databuf] ++ [.sendReplyEnd] = _
        from rest)
  obtain ⟨first, single, same⟩ := List.map_eq_singleton_iff.mp parts.symm
  cases same
  exact single

/-- A handler gets one reply out with its own bytes exactly if it makes no
`setChunk` and none of its strings has a `%`. -/
theorem mainCallback_oneReply_iff
    (findHeaders : ByteString → Option ByteString)
    (handler : List HandlerCall) :
    (∃ calls, mainCallback findHeaders handler = some calls ∧
        OneReply calls (HandlerCall.body handler)) ↔
      ∀ call ∈ handler, call.Plain := by
  constructor
  · intro replies call listed
    obtain ⟨calls, replies, code, reason, chunks, sequence, bytes⟩ := replies
    obtain ⟨request, sent, text, handled, made⟩ :=
      mainCallback_eq_some replies
    rw [made] at sequence
    cases sent with
    | cons early sent => simp at sequence
    | nil =>
        refine ⟨handled.unsent.mp rfl call listed, ?_⟩
        intro converts
        have shorter := handled.shorter ⟨call, listed, converts⟩
        have printed : request.buffer = text := handled.printed
        have single := chunks_eq_singleton sequence
        rw [single, List.flatten_singleton, printed] at bytes
        rw [bytes] at shorter
        exact Nat.lt_irrefl _ shorter
  · intro plain
    obtain ⟨request, ran⟩ := HttpRequest.foldlM_of_plain
      (fun call listed => (plain call listed).2) HttpRequest.create
    obtain ⟨calls, replies⟩ :
        ∃ calls, mainCallback findHeaders handler = some calls := by
      rw [mainCallback, ran]
      exact ⟨_, rfl⟩
    obtain ⟨request, sent, text, handled, made⟩ :=
      mainCallback_eq_some replies
    have unsent := handled.unsent.mpr fun call listed => (plain call listed).1
    have printed := handled.printed
    subst unsent
    refine ⟨calls, replies, 200, ascii "OK", [request.buffer], made, ?_⟩
    rw [List.flatten_singleton, ← handled.plain fun call listed =>
      (plain call listed).2]
    exact printed

/-- A chunk goes out in front of the start of its reply, and a string with two
`%` comes out with one. -/
theorem mainCallback_oneReply_fails :
    ∃ chunk discount : CString, chunk.bytes = ascii "a" ∧
      discount.bytes = ascii "5%%" ∧
      (∃ calls, mainCallback (fun _ => none) [.setChunk chunk] = some calls ∧
        calls =
          [.sendReplyChunk (ascii "a"), .sendReplyStart 200 (ascii "OK"),
            .sendReplyChunk [], .sendReplyEnd] ∧
        ¬ OneReply calls (HandlerCall.body [.setChunk chunk])) ∧
      ∃ calls, mainCallback (fun _ => none) [.setBody discount] = some calls ∧
        calls =
          [.sendReplyStart 200 (ascii "OK"), .sendReplyChunk (ascii "5%"),
            .sendReplyEnd] ∧
        ¬ OneReply calls (HandlerCall.body [.setBody discount]) := by
  refine ⟨⟨ascii "a", by decide⟩, ⟨ascii "5%%", by decide⟩, rfl, rfl,
    ⟨_, rfl, rfl, ?_⟩, _, rfl, rfl, ?_⟩
  · intro reply
    obtain ⟨code, reason, chunks, sequence, _⟩ := reply
    cases sequence
  · intro reply
    obtain ⟨code, reason, chunks, sequence, bytes⟩ := reply
    rw [chunks_eq_singleton sequence] at bytes
    exact absurd bytes (by decide)

end HttpServer

end Translib

end DBWrapper
