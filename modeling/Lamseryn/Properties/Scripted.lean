import Lamseryn.Model.Session

/-!
# A concrete parser

The results are about every llhttp that parses as assumed.  To evaluate the loop on a concrete
stream, `scripted` is such a parser for one fixed message: it knows which callbacks each byte of
the message causes, and it pauses behind the last one; `replay` knows the results for one fixed sequence of
chunks.
-/

namespace Lamseryn

open ByteText

/-- The callbacks at each byte of a message, from its parts: each part is a text whose last byte
causes the callbacks beside it. -/
def script (parts : List (String × List Callback)) : List (List Callback) :=
  parts.flatMap fun part => List.replicate ((ascii part.1).length - 1) [] ++ [part.2]

/-- The bytes of a message from its parts. -/
def scriptBytes (parts : List (String × List Callback)) : Bytes :=
  parts.flatMap fun part => ascii part.1

/-- The parser that makes the callbacks of a script. -/
def scripted (parts : List (String × List Callback)) : Llhttp where
  State := ℕ
  init := 0
  execute pos buf :=
    if pos + buf.length < (script parts).length then
      ⟨pos + buf.length, (((script parts).drop pos).take buf.length).flatten, .ok, none⟩
    else
      ⟨(script parts).length, ((script parts).drop pos).flatten, .paused,
        some ((script parts).length - pos)⟩

/-- The parser of a message whose header section is a script and whose body has `n` bytes. -/
def scriptedBody (parts : List (String × List Callback)) (n : ℕ) : Llhttp where
  State := ℕ
  init := 0
  execute pos buf :=
    let head := (script parts).length
    let calls := (((script parts).drop pos).take buf.length).flatten
    let body := (buf.take (head + n - pos)).drop (head - pos)
    let calls := if body = [] then calls else calls ++ [.body body]
    if pos + buf.length < head + n then ⟨pos + buf.length, calls, .ok, none⟩
    else ⟨head + n, calls ++ [.messageComplete], .paused, some (head + n - pos)⟩

/-- The parser that answers chunk after chunk with recorded results, and then repeats its last error
code. -/
def replay (results : List (List Callback × LlhttpErrno)) : Llhttp where
  State := ℕ
  init := 0
  execute k _ :=
    match results[k]? with
    | some r => ⟨k + 1, r.1, r.2, none⟩
    | none => ⟨k, [], (results.getLast?.map Prod.snd).getD .ok, none⟩

/-- A request without header fields. -/
def bareRequest : List (String × List Callback) :=
  [("GET /", [.url (ascii "/")]),
   (" HTTP/1.1\r\n\r\n", [.headersComplete .get true, .messageComplete])]

/-- A worker whose request handling answers every request with one byte and keep-alive. -/
def sampleWorker (L : Llhttp) : Worker L where
  handlers :=
    { dispatchOk := fun _ _ _ => .txBuffer ⟨.okKa, [1], by decide, true, none⟩
      policyFails := fun _ _ _ => false
      responseText := fun _ _ _ => [1]
      responseText_ne_nil := by simp }
  maxHeaderBytes := 65536
  maxBodyBytes := 1048576
  stackDepth := 4

/-- A TLS request is answered at once, behind a handshake. -/
def answeredAtOnce : List (SessionEvent × Env) :=
  [(.handshakeRead false .done, {}),
   (.io (.tlsRead [.data (scriptBytes bareRequest), .again true false]), { tlsSends := [.sent 1] })]

end Lamseryn
