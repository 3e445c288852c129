/-
  What the exchanges of the services keep.

  The methods of the command sets and of what is built on them are put together from exchanges of the
  engine, so whatever holds across every step of an exchange holds across each of them.
-/
import AtModem.Gnss.Feed
import AtModem.Http.Client
import AtModem.Mqtt.Client
import AtModem.Proofs.Exchange
import AtModem.Ssl.Socket

namespace AtModem

variable {σ α β ε : Type} {R : Engine σ → Engine σ → Prop}

section

variable {e f : Engine σ}

/-- What the engine answers is the answer of a client's call; only errors are wrapped. -/
theorem ClientM.ofEngine_of_ok {x : EngineM σ α} {a : α} (h : x e = .ok a f) :
    ClientM.ofEngine x e = .ok a f := by
  unfold ClientM.ofEngine
  rw [h]

/-- An error of the engine is an error of the link to the client, and it arises in the same state. -/
theorem ClientM.ofEngine_of_error {x : EngineM σ α} {err : AtError} (h : x e = .error err f) :
    ClientM.ofEngine x e = .error (.link err) f := by
  unfold ClientM.ofEngine
  rw [h]

/-- Wrapping the errors of a computation does not change the state that it ends in. -/
theorem ClientM.endState_ofEngine (x : EngineM σ α) (e : Engine σ) :
    endState (ClientM.ofEngine x e) = endState (x e) := by
  cases h : x e with
  | ok a f => rw [ofEngine_of_ok h]; rfl
  | error err f => rw [ofEngine_of_error h]; rfl

/-- Wrapping adds no success and takes none away, so what is known of successful exchanges carries
    over to client calls. -/
theorem ClientM.ofEngine_eq_ok_iff (x : EngineM σ α) (e : Engine σ) (a : α) (f : Engine σ) :
    ClientM.ofEngine x e = .ok a f ↔ x e = .ok a f := by
  cases h : x e with
  | ok b g => simp [ofEngine_of_ok h]
  | error err g => simp [ofEngine_of_error h]

/-- A computation on the engine alone, seen beside the state of an owner, leaves that state as it
    is. -/
theorem ClientM.beside_of_ok {x : ClientM σ α} {a : α} (b : β) (h : x e = .ok a f) :
    ClientM.beside x (b, e) = .ok a (b, f) := by
  simp only [ClientM.beside, h]

/-- Also when it fails: the state of the owner is then what it was before the call. -/
theorem ClientM.beside_of_error {x : ClientM σ α} {err : ClientError} (b : β)
    (h : x e = .error err f) : ClientM.beside x (b, e) = .error err (b, f) := by
  simp only [ClientM.beside, h]

theorem ClientM.endState_beside (x : ClientM σ α) (b : β) (e : Engine σ) :
    endState (ClientM.beside x (b, e)) = (b, endState (x e)) := by
  cases h : x e with
  | ok a f => rw [beside_of_ok b h]; rfl
  | error err f => rw [beside_of_error b h]; rfl

end

/-- The three numbers of a result line of a request are read in a row off the stream. -/
theorem Stream.KeptByReading.readResult {S : Stream σ → Stream σ → Prop} (k : KeptByReading S) :
    Along S (Http.readResult (σ := σ)) := by
  refine k.bind (k.find _) fun _ => k.bind k.parseInt fun status => k.bind (k.find _) fun _ =>
    k.bind k.parseLen fun _ => k.bind (k.find _) fun _ => ?_
  split
  · exact k.pure _
  · exact k.throw _

/-- A relation that holds along a computation of the engine holds along the same computation as a
    client's call, since the states are the same. -/
theorem ClientM.along_ofEngine {x : EngineM σ α} (h : Along R x) : Along R (ClientM.ofEngine x) := by
  intro e
  have k := h e
  unfold ClientM.ofEngine
  split <;> rename_i r <;> rw [r] at k <;> exact k

/-- Beside the state of an owner the relation speaks of the engines only, and a call that does not
    know the owner keeps it. -/
theorem ClientM.along_beside {x : ClientM σ α} (h : Along R x) :
    Along (Engine.Beside R) (ClientM.beside x : OwnerM β σ α) := by
  intro (b, e)
  have k := h e
  unfold ClientM.beside
  simp only
  split <;> rename_i r <;> rw [r] at k <;> exact k

namespace Engine.KeptByListening

variable {S : Stream σ → Stream σ → Prop}

/-! ## Result lines -/

/-- The result line of a session: a wait for its tag, then the line behind it. -/
theorem sessionResult (k : KeptByListening S R) (tag : String) :
    Along R (Ssl.sessionResult tag : EngineM σ Unit) := by
  refine k.bind (k.await _ _ _ _) fun outcome => ?_
  split
  · exact k.indexedCodeLine
  · exact k.ofResult _

/-- What is done after the wait for a code: the line is read if the tag came, and otherwise only the
    outcome is judged. -/
theorem codeAfter (k : KeptByListening S R) (outcome : MatchOutcome) :
    Along R (Mqtt.codeAfter outcome : EngineM σ Unit) := by
  unfold Mqtt.codeAfter
  split
  · exact k.codeLine
  · exact k.ofResult _

theorem indexedCodeAfter (k : KeptByListening S R) (outcome : MatchOutcome) :
    Along R (Mqtt.indexedCodeAfter outcome : EngineM σ Unit) := by
  unfold Mqtt.indexedCodeAfter
  split
  · exact k.indexedCodeLine
  · exact k.ofResult _

end Engine.KeptByListening

namespace Engine.KeptByExchange

open ClientM

variable [Device σ] {S : Stream σ → Stream σ → Prop}

/-- A refusal of arguments is made before anything is sent, so the engine does not move at all. -/
theorem refuse (k : KeptByExchange S R) (fault : ArgumentFault) :
    Along R (ClientM.refuse (α := α) fault) :=
  k.throw _

/-! ## Certificates, contexts, sockets -/

section Ssl

theorem configure (k : KeptByExchange S R) (key : String) (ctx : ContextIndex) (value : String) :
    Along R (Ssl.configure key ctx value) :=
  along_ofEngine (k.plainCommand _)

/-- The check of a slot name looks at the name and nothing else. -/
theorem checkSlot (k : KeptByExchange S R) (slot : String) :
    Along R (Ssl.checkSlot slot : ClientM σ Unit) := by
  unfold Ssl.checkSlot
  split
  · exact k.refuse _
  · exact k.pure _

/-- A certificate is uploaded behind the check of the name of its slot. -/
theorem certDownload (k : KeptByExchange S R) (data : Bytes) (slot : String) :
    Along R (Ssl.certDownload data slot) :=
  k.bind (k.checkSlot slot) fun _ => along_ofEngine (k.upload _)

/-- The search of the listing: the command is written, its answer is waited through, and what is
    left of it is cleared away. -/
theorem certExists (k : KeptByExchange S R) (slot : String) : Along R (Ssl.certExists slot) := by
  refine k.bind (k.checkSlot slot) fun _ => along_ofEngine ?_
  refine k.bind (k.send _) fun _ => k.bind (k.await _ _ _ _) fun outcome => ?_
  split
  · exact k.bind k.plainClear fun _ => k.pure _
  · exact k.pure _
  · exact k.throw _
  · exact k.throw _

/-- A removal is one command behind the check of the name. -/
theorem certDelete (k : KeptByExchange S R) (slot : String) : Along R (Ssl.certDelete slot) :=
  k.bind (k.checkSlot slot) fun _ => along_ofEngine (k.command _ _)

/-- To overwrite is to look, to remove if there is something, and to upload: three exchanges in a
    row, any of which may end the call. -/
theorem certOverwrite (k : KeptByExchange S R) (data : Bytes) (slot : String) :
    Along R (Ssl.certOverwrite data slot) := by
  refine k.bind (k.certExists slot) fun found => ?_
  split
  · exact k.bind (k.certDelete slot) fun _ => k.certDownload data slot
  · exact k.certDownload data slot

/-- After an error line the start of the service waits once more, for a result line that may follow
    it; this too only listens. -/
theorem startSsl (k : KeptByExchange S R) : Along R (Ssl.start (σ := σ)) := by
  refine along_ofEngine (k.bind (k.send _) fun _ => k.bind (k.await _ _ _ _) fun outcome => ?_)
  split
  · exact k.codeLine
  · refine k.bind (k.await _ _ _ _) fun late => ?_
    split
    · exact k.codeLine
    · exact k.throw _
  · exact k.ofResult _

/-- To stop the service takes a command and its result line. -/
theorem stopSsl (k : KeptByExchange S R) : Along R (Ssl.stop (σ := σ)) := by
  refine along_ofEngine (k.bind (k.send _) fun _ => k.bind (k.await _ _ _ _) fun outcome => ?_)
  split
  · exact k.codeLine
  · exact k.ofResult _

/-- Opening a session is a command and the result line of the session. -/
theorem openSession (k : KeptByExchange S R) (session : SessionId) (host : String) (port : Nat) :
    Along R (Ssl.openSession session host port) := by
  unfold Ssl.openSession
  split
  · exact k.bind (k.refuse _) fun _ => along_ofEngine (k.bind (k.send _) fun _ => k.sessionResult _)
  · exact along_ofEngine (k.bind (k.send _) fun _ => k.sessionResult _)

theorem closeSession (k : KeptByExchange S R) (session : SessionId) : Along R (Ssl.close session) :=
  along_ofEngine (k.bind (k.send _) fun _ => k.sessionResult _)

/-- Data for a session is an upload behind the check that there is some. -/
theorem sendData (k : KeptByExchange S R) (session : SessionId) (data : Bytes) :
    Along R (Ssl.sendData session data) := by
  unfold Ssl.sendData
  split
  · exact k.bind (k.refuse _) fun _ => along_ofEngine (k.upload _)
  · exact along_ofEngine (k.upload _)

/-- What is available is asked for by one command, and the two numbers of the answer are read off
    the stream. -/
theorem available (k : KeptByExchange S R) (session : SessionId) :
    Along R (Ssl.available session) := by
  have lengths := k.onStream (k.reading.bind k.reading.parseLen fun first =>
    k.reading.bind (k.reading.find Ascii.comma) fun _ =>
      k.reading.bind k.reading.parseLen fun second => k.reading.pure (first, second))
  have rest := k.bind lengths fun p =>
    k.bind k.plainClear fun _ => k.pure (if session = 0 then p.1 else p.2)
  refine along_ofEngine (k.bind (k.send _) fun _ => k.bind (k.await _ _ _ _) fun outcome => ?_)
  cases outcome with
  | pattern _ => exact rest
  | _ => exact k.bind (k.ofResult _) fun _ => k.bind (k.throw _) fun _ => rest

/-- The chunks of a reception are taken one after another, into the buffer while there is room and
    passed over from there on.  The proof follows the recursion, which goes on as long as chunks
    come. -/
theorem takeChunks (k : KeptByExchange S R) (excess : Nat) :
    Along (Beside R) (Ssl.takeChunks excess : BufferM AtError σ Nat) := by
  intro s
  -- a turn is one chunk, whether it is the last, goes wrong or is followed by another
  fun_induction Ssl.takeChunks excess s with
  | case1 excess s err t h =>
    have := Ssl.kept_nextChunk k.toKeptByListening s
    rwa [h] at this
  | case2 excess s t h =>
    have := Ssl.kept_nextChunk k.toKeptByListening s
    rwa [h] at this
  | case3 excess s more t h ih =>
    have := Ssl.kept_nextChunk k.toKeptByListening s
    rw [h] at this
    exact k.trans _ _ _ this ih

/-- The first half of a reception: the command, and its answer, which is `OK` or at once a closing
    code. -/
theorem openReceive (k : KeptByExchange S R) (session : SessionId) (size : Nat) :
    Along R (Ssl.openReceive session size) := by
  refine k.bind (k.send _) fun _ => k.bind (k.await _ _ _ _) fun outcome => ?_
  split
  · exact k.pure _
  · exact k.bind (Ssl.kept_sessionCode k.toKeptByListening) fun _ => k.bind k.plainClear fun _ =>
      k.bind (k.ofResult _) fun _ => k.throw _
  · exact k.throw _
  · exact k.throw _

/-- A whole reception writes its command and then only listens, however many chunks the data comes
    in. -/
theorem receive (k : KeptByExchange S R) (session : SessionId) :
    Along (Beside R) (Ssl.receive session : BufferM AtError σ Nat) := by
  refine k.beside_bind k.beside_get fun p => ?_
  refine k.beside_bind (along_besideBuffer (k.openReceive session _)) fun _ => ?_
  refine k.beside_bind (k.takeChunks 0) fun excess => k.beside_bind k.beside_get fun q => ?_
  dsimp only
  split
  · exact k.beside_pure _
  · exact k.beside_throw _

end Ssl

/-! ## The MQTT client -/

section Mqtt

theorem checkText (k : KeptByExchange S R) (text : String) :
    Along R (Mqtt.checkText text : ClientM σ Unit) := by
  unfold Mqtt.checkText
  split
  · exact k.pure _
  · exact k.refuse _

/-- The service is started by a command with a result line.  An error line has an error of its own,
    and giving it another name does not touch the engine. -/
theorem startMqtt (k : KeptByExchange S R) : Along R (Mqtt.start (σ := σ)) := by
  refine k.bind (along_ofEngine (k.send _)) fun _ =>
    k.bind (along_ofEngine (k.await _ _ _ _)) fun outcome => ?_
  split
  · exact k.throw _
  · exact along_ofEngine (k.codeAfter _)

theorem stopMqtt (k : KeptByExchange S R) : Along R (Mqtt.stop (σ := σ)) := by
  refine k.bind (along_ofEngine (k.send _)) fun _ =>
    k.bind (along_ofEngine (k.await _ _ _ _)) fun outcome => ?_
  split
  · exact k.throw _
  · exact along_ofEngine (k.codeAfter _)

/-- A client is acquired behind a check of its name, by a command that is answered by a terminator
    or by a result line. -/
theorem acquire (k : KeptByExchange S R) (client : ClientIndex) (clientId : String) (useSsl : Bool) :
    Along R (Mqtt.acquire client clientId useSsl) :=
  k.bind (k.checkText _) fun _ => along_ofEngine (k.bind (k.send _) fun _ =>
    k.bind (k.await _ _ _ _) fun _ => k.indexedCodeAfter _)

theorem releaseClient (k : KeptByExchange S R) (client : ClientIndex) :
    Along R (Mqtt.releaseClient client) :=
  along_ofEngine (k.bind (k.send _) fun _ => k.bind (k.await _ _ _ _) fun _ => k.indexedCodeAfter _)

/-- An upload that can be refused under a tag, behind the check that there is something to upload. -/
theorem uploadUnder (k : KeptByExchange S R) (tag command : String) (data : Bytes) :
    Along R (Mqtt.uploadUnder tag command data) := by
  unfold Mqtt.uploadUnder
  split
  · exact k.bind (k.refuse _) fun _ => along_ofEngine (k.upload _)
  · exact along_ofEngine (k.upload _)

/-- A subscription is an upload that is confirmed by a result line. -/
theorem subscribe (k : KeptByExchange S R) (client : ClientIndex) (topic : String) (qos : Nat) :
    Along R (Mqtt.subscribe client topic qos) := by
  unfold Mqtt.subscribe
  split
  · exact k.bind (k.refuse _) fun _ => along_ofEngine (k.upload _)
  · exact along_ofEngine (k.upload _)

/-- A connection: the texts are checked, then there is one command and one result line, whichever
    login goes with it. -/
theorem connectMqtt (k : KeptByExchange S R) (client : ClientIndex) (server : String) (port : Nat)
    (params : Mqtt.ConnectParams) : Along R (Mqtt.connect client server port params) := by
  -- the command is the same with credentials and without
  have order : ∀ line timeout, Along R (ofEngine (σ := σ) do
      Engine.send line
      Mqtt.indexedCodeAfter (← Engine.await [Utf8.encode "+CMQTTCONNECT: "] timeout false true)) :=
    fun _ _ => along_ofEngine (k.bind (k.send _) fun _ => k.bind (k.await _ _ _ _) fun _ =>
      k.indexedCodeAfter _)
  refine k.bind (k.checkText _) fun _ => ?_
  dsimp only
  split
  · exact order _ _
  · exact k.bind (k.checkText _) fun _ => k.bind (k.checkText _) fun _ => order _ _

/-- The first entry that names the client is waited for, its number is read, and the rest of the
    listing is cleared away. -/
theorem isConnected (k : KeptByExchange S R) (client : ClientIndex) :
    Along R (Mqtt.isConnected client) := by
  refine along_ofEngine (k.bind (k.send _) fun _ => k.bind (k.await _ _ _ _) fun outcome => ?_)
  split
  · exact k.bind k.plainTimeout fun _ => k.bind (k.parseIntClear _) fun _ => k.pure _
  · exact k.throw _
  · exact k.pure _

/-- A disconnection is a command and a result line under the timeout that it asked for. -/
theorem disconnectMqtt (k : KeptByExchange S R) (client : ClientIndex) (timeoutSecs : Nat) :
    Along R (Mqtt.disconnect client timeoutSecs) :=
  along_ofEngine (k.bind (k.send _) fun _ => k.bind (k.await _ _ _ _) fun _ => k.indexedCodeAfter _)

/-- A publication is one command and its result line. -/
theorem publish (k : KeptByExchange S R) (client : ClientIndex) (params : Mqtt.PublishParams) :
    Along R (Mqtt.publish client params) :=
  along_ofEngine (k.bind (k.send _) fun _ => k.bind (k.await _ _ _ _) fun _ => k.indexedCodeAfter _)

end Mqtt

/-! ## The HTTP client -/

section Http

/-- A parameter that is a text is one command behind a check of the text. -/
theorem setText (k : KeptByExchange S R) (key value : String) : Along R (Http.setText key value) := by
  unfold Http.setText
  split
  · exact k.bind (k.refuse _) fun _ => along_ofEngine (k.plainCommand _)
  · exact along_ofEngine (k.plainCommand _)

theorem setNumber (k : KeptByExchange S R) (key : String) (value : Nat) :
    Along R (Http.setNumber key value) :=
  along_ofEngine (k.plainCommand _)

/-- The body of a request is an upload with a prompt and timeouts of its own. -/
theorem data (k : KeptByExchange S R) (body : Bytes) (timeoutSecs : Nat) :
    Along R (Http.data body timeoutSecs) :=
  along_ofEngine (k.upload _)

/-- To run a request: a command, its `OK`, the wait for the tag of the result, and the numbers
    behind it. -/
theorem action (k : KeptByExchange S R) (method : Http.Method) : Along R (Http.action method) := by
  refine along_ofEngine (k.bind (k.plainCommand _) fun _ =>
    k.bind (k.await _ _ _ _) fun outcome => ?_)
  split
  · exact k.onStream k.reading.readResult
  · exact k.bind (k.ofResult _) fun _ => k.throw _

/-- How much of a body is left is a number in the answer to one command. -/
theorem contentLength (k : KeptByExchange S R) : Along R (Http.contentLength (σ := σ)) := by
  refine along_ofEngine (k.bind (k.send _) fun _ => k.bind k.plainTimeout fun _ =>
    k.bind (k.await _ _ _ _) fun outcome => ?_)
  split
  · refine k.bind (k.parseIntClear _) fun length => ?_
    split
    · exact k.throw _
    · exact k.pure _
  · exact k.bind (k.ofResult _) fun _ => k.throw _

end Http

/-! ## The satellite receiver -/

/-- The receiver is turned on by a command and waited for; that it does not get ready is an answer
    and not an error. -/
theorem powerOn (k : KeptByExchange S R) (readyTimeout : Nat) :
    Along R (Gnss.powerOn readyTimeout : ClientM σ Bool) := by
  refine k.bind (along_ofEngine (k.command _ _)) fun _ =>
    along_ofEngine (k.bind (k.await _ _ _ _) fun outcome => ?_)
  split
  · exact k.pure _
  · exact k.throw _
  · exact k.pure _

theorem order (k : KeptByExchange S R) (line : String) : Along R (Gnss.order line) :=
  along_ofEngine (k.command _ _)

end Engine.KeptByExchange
end AtModem
