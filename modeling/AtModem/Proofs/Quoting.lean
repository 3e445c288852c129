/-
  Texts of the caller between quotes, and what the device hears.

  Thirteen methods of the command sets and of contexts put a text of the caller between quotes: the name
  of a slot, a host, a client's name, the address and the login of a broker, a parameter of a request.
  What each of them writes is known beforehand (`QuotingMethod.pieces`), up to where it stops.  Most of
  them check the text first.  Then a line that is written is clean, and no line is written for a text
  that would not make it so.

  Binding a slot to a context checks nothing.  The name goes into the line whatever it is, and the line
  is clean only if the name happens to be one that can be quoted; a name with a quote and a line end in
  it makes two commands of one.
-/
import AtModem.Http.Commands
import AtModem.Link.Script
import AtModem.Mqtt.Commands
import AtModem.Proofs.CommandLine
import AtModem.Proofs.Written
import AtModem.Ssl.Context

namespace AtModem

open Engine ClientM

variable {σ : Type}

/-! ## The methods -/

/-- What a slot can be bound to a context as. -/
inductive SlotUse where
  | authority
  | certificate
  | key
  | password

/-- The name of the parameter in the command that binds it. -/
def SlotUse.parameter : SlotUse → String
  | authority => "cacert"
  | certificate => "clientcert"
  | key => "clientkey"
  | password => "password"

/-- The parameters of a request that are texts. -/
inductive RequestText where
  | url
  | contentType
  | accept
  | headers

/-- The name of the parameter in the command that sets it. -/
def RequestText.parameter : RequestText → String
  | url => "URL"
  | contentType => "CONTENT"
  | accept => "ACCEPT"
  | headers => "USERDATA"

/-- The methods that put texts between quotes, with their arguments.  Those of the second half are
    methods of a context.  What is to hold of all of them is stated once for this type, and each
    method is a case of it. -/
inductive QuotingMethod where
  | bind (as : SlotUse) (ctx : ContextIndex) (slot : String)
  | certDownload (data : Bytes) (slot : String)
  | certDelete (slot : String)
  | certOverwrite (data : Bytes) (slot : String)
  | openSession (session : SessionId) (host : String) (port : Nat)
  | acquire (client : ClientIndex) (clientId : String) (useSsl : Bool)
  | connect (client : ClientIndex) (server : String) (port : Nat) (params : Mqtt.ConnectParams)
  | describeRequest (what : RequestText) (value : String)
  | setCaCert (slot : String)
  | setClient (slots : ClientSlots)
  | setCerts (caSlot : String) (slots : ClientSlots)
  | writeCaCert (cert : Bytes) (slot : String)
  | writeClient (cert key password : Bytes) (slots : ClientSlots)

namespace QuotingMethod

/-- Binds a slot; the four ways to do so are the four methods of the command set. -/
def bindSlot [Device σ] (ctx : ContextIndex) (slot : String) : SlotUse → ClientM σ Unit
  | .authority => Ssl.setCaCert ctx slot
  | .certificate => Ssl.setClientCert ctx slot
  | .key => Ssl.setClientKey ctx slot
  | .password => Ssl.setPassword ctx slot

/-- Sets a parameter of a request; each has a method of its own. -/
def setRequestText [Device σ] (value : String) : RequestText → ClientM σ Unit
  | .url => Http.setUrl value
  | .contentType => Http.setContentType value
  | .accept => Http.setAccept value
  | .headers => Http.setUserData value

/-- The method called beside a context, which the methods of the command sets leave alone. -/
def run [Device σ] : QuotingMethod → OwnerM SecureContext σ Unit
  | bind as ctx slot => beside (bindSlot ctx slot as)
  | certDownload data slot => beside (Ssl.certDownload data slot)
  | certDelete slot => beside (Ssl.certDelete slot)
  | certOverwrite data slot => beside (Ssl.certOverwrite data slot)
  | openSession session host port => beside (Ssl.openSession session host port)
  | acquire client clientId useSsl => beside (Mqtt.acquire client clientId useSsl)
  | connect client server port params => beside (Mqtt.connect client server port params)
  | describeRequest what value => beside (setRequestText value what)
  | setCaCert slot => SecureContext.setCaCert slot
  | setClient slots => SecureContext.setClient slots
  | setCerts caSlot slots => SecureContext.setCerts caSlot slots
  | writeCaCert cert slot => SecureContext.writeCaCert cert slot
  | writeClient cert key password slots => SecureContext.writeClient cert key password slots

/-- Whether the method looks at its texts before it quotes them: those that bind slots do not.  The
    texts of those that do not look may hold anything, and their lines are clean only if the caller
    has looked. -/
def checked : QuotingMethod → Bool
  | bind .. | setCaCert .. | setClient .. | setCerts .. => false
  | _ => true

/-- What a slot's name is refused for: that it is empty, or that it cannot be quoted. -/
def slotFault (slot : String) : Option ArgumentFault :=
  if slot.isEmpty || !quotable slot then some (.slotName slot) else none

/-- What a name or an address is refused for: that it cannot be quoted. -/
def textFault (text : String) : Option ArgumentFault :=
  if quotable text then none else some (.unquotable text)

/-- The texts that go into the login of a broker, the user's name first. -/
def login : Option (String × String) → List String
  | none => []
  | some (user, password) => [user, password]

/-- Why the method does nothing at all, by what it checks first. -/
def fault? : QuotingMethod → Option ArgumentFault
  | certDownload _ slot | certDelete slot | certOverwrite _ slot | writeCaCert _ slot => slotFault slot
  | writeClient _ _ _ slots => slotFault slots.cert
  | openSession _ host _ => if host.isEmpty || !quotable host then some (.host host) else none
  | acquire _ clientId _ => textFault clientId
  | connect _ server _ params => (server :: login params.credentials).findSome? textFault
  | describeRequest what value =>
    if !quotable value then some (.unquotableParameter what.parameter value) else none
  | bind .. | setCaCert .. | setClient .. | setCerts .. => none

/-! ## What they write -/

/-- The command that sets a parameter of a context. -/
def configured (key : String) (ctx : ContextIndex) (value : String) (quoted : List String) : Piece :=
  .line s!"AT+CSSLCFG=\"{key}\",{ctx},{value}" quoted

/-- The command that binds a slot, with the slot's name as the quoted text. -/
def bound (as : SlotUse) (ctx : ContextIndex) (slot : String) : Piece :=
  configured as.parameter ctx (inQuotes slot) [slot]

/-- The command that sends the mode; it quotes nothing of the caller's. -/
def authMode (c : SecureContext) : Piece :=
  configured "authmode" c.index (toString c.authMode.code) []

/-- The question for the listing, which quotes nothing. -/
def listing : Piece := .line "AT+CCERTLIST" []

/-- The command that empties a slot. -/
def removal (slot : String) : Piece := .line s!"AT+CCERTDELE={inQuotes slot}" [slot]

/-- An upload: its announcement, then the data. -/
def storing (data : Bytes) (slot : String) : List Piece :=
  [.line s!"AT+CCERTDOWN={inQuotes slot},{data.length}" [slot], .data data]

/-- An overwriting, as far as it may go: the question, the removal and the upload. -/
def overwriting (data : Bytes) (slot : String) : List Piece :=
  listing :: removal slot :: storing data slot

/-- The authority's slot bound, and the mode that is sent then. -/
def caBound (c : SecureContext) (slot : String) : List Piece :=
  [bound .authority c.index slot, authMode { c with ca := some slot }]

/-- The client's slots bound, and the mode that is sent then. -/
def clientBound (c : SecureContext) (slots : ClientSlots) : List Piece :=
  [bound .certificate c.index slots.cert, bound .key c.index slots.key,
    bound .password c.index slots.password, authMode { c with client := some slots }]

/-- The command that connects to a broker, with the texts in it that are the caller's. -/
def connection (client : ClientIndex) (server : String) (port : Nat) (params : Mqtt.ConnectParams) :
    Piece :=
  let address := Mqtt.brokerAddress server port
  let keepalive := params.keepaliveSecs
  let clean := flag params.cleanSession
  let behind := match params.credentials with
    | none => ""
    | some (user, password) => s!",\"{user}\",\"{password}\""
  .line s!"AT+CMQTTCONNECT={client},\"{address}\",{keepalive},{clean}{behind}"
    (server :: login params.credentials)

/-- All that the method writes if nothing keeps it from going on, in this order.  If it is kept from
    going on, a front of them has been written, so what holds of all pieces holds of all that was
    written. -/
def pieces (c : SecureContext) : QuotingMethod → List Piece
  | bind as ctx slot => [bound as ctx slot]
  | certDownload data slot => storing data slot
  | certDelete slot => [removal slot]
  | certOverwrite data slot => overwriting data slot
  | openSession session host port => [.line s!"AT+CCHOPEN={session},\"{host}\",{port}" [host]]
  | acquire client clientId useSsl =>
    [.line s!"AT+CMQTTACCQ={client},\"{clientId}\",{flag useSsl}" [clientId]]
  | connect client server port params => [connection client server port params]
  | describeRequest what value => [.line s!"AT+HTTPPARA=\"{what.parameter}\",\"{value}\"" [value]]
  | setCaCert slot => caBound c slot
  | setClient slots => clientBound c slots
  | setCerts caSlot slots => caBound c caSlot ++ clientBound { c with ca := some caSlot } slots
  | writeCaCert cert slot => overwriting cert slot ++ caBound c slot
  | writeClient cert key password slots =>
    overwriting cert slots.cert ++ (overwriting key slots.key ++
      (overwriting password slots.password ++ clientBound c slots))

end QuotingMethod

/-! ## Clean pieces -/

/-- A line with its quoted texts is clean; data is no line, and nothing is looked for in it. -/
def Piece.Clean : Piece → Prop
  | line text quoted => AtModem.Clean text quoted
  | data _ => True

namespace QuotingMethod

theorem quotable_parameter (as : SlotUse) : quotable as.parameter = true := by
  cases as <;> decide

/-- A setting is written as a row of parameters behind its command. -/
theorem configured_eq (key : String) (ctx : ContextIndex) (value : String) (quoted : List String) :
    configured key ctx value quoted =
      .line (commandLine "AT+CSSLCFG=" [inQuotes key, toString ctx.toNat, value]) quoted := by
  refine congrArg (Piece.line · quoted) (String.toList_inj.mp ?_)
  show ("AT+CSSLCFG=\"" ++ key ++ "\"," ++ toString ctx.toNat ++ "," ++ value).toList = _
  simp [commandLine, inQuotes]

/-- A bound slot goes into the line as it is, and the line is clean if that can be quoted.  It goes
    both ways, so for the methods that bind slots it says just when their lines are unclean. -/
theorem clean_bound_iff (as : SlotUse) (ctx : ContextIndex) (slot : String) :
    (bound as ctx slot).Clean ↔ quotable slot = true := by
  rw [bound, configured_eq]
  constructor
  · intro h
    obtain ⟨unbroken, verbatim⟩ : AtModem.Clean _ _ := h
    obtain ⟨whole, part, unquoted, -⟩ := verbatim slot List.mem_cons_self
    rw [quotable_iff]
    intro c hc
    rw [unbroken_iff, toList_commandLine] at unbroken
    have plain := unbroken c (by simp [inQuotes, hc])
    refine ⟨?_, plain⟩
    rintro rfl
    exact unquoted (part.subset hc)
  · intro h
    exact clean_commandLine_one (by decide) (by decide)
      ((Sound.inQuotes (quotable_parameter as)).cons ((Sound.toString _).cons
        ((Sound.inQuotes h).cons .nil))) h (by simp)

/-- The line that sends the mode is unbroken, whatever the mode, and quotes none of the caller's
    texts. -/
theorem clean_authMode (c : SecureContext) : (authMode c).Clean := by
  rw [authMode, configured_eq]
  exact clean_commandLine (List.cons_ne_nil _ _) (by decide) (by decide)
    ((Sound.inQuotes (by decide)).cons ((Sound.toString _).cons ((Sound.toString _).cons .nil)))
    fun _ h => (nomatch h)

theorem clean_listing : listing.Clean where
  unbroken := by decide
  verbatim _ h := nomatch h

/-- The line of a removal is clean if the name can be quoted: the name has a parameter of its
    own. -/
theorem clean_removal {slot : String} (h : quotable slot = true) : (removal slot).Clean := by
  have line : s!"AT+CCERTDELE={inQuotes slot}" = commandLine "AT+CCERTDELE=" [inQuotes slot] := by
    show "AT+CCERTDELE=" ++ inQuotes slot = _
    apply String.toList_inj.mp
    simp [commandLine, inQuotes]
  show AtModem.Clean _ _
  rw [line]
  exact clean_commandLine_one (by decide) (by decide) ((Sound.inQuotes h).cons .nil) h
    List.mem_cons_self

/-- With such a name the line that announces an upload is clean, and the data is not looked at. -/
theorem clean_storing {slot : String} (h : quotable slot = true) (data : Bytes) :
    ∀ p ∈ storing data slot, p.Clean := by
  have line : s!"AT+CCERTDOWN={inQuotes slot},{data.length}" =
      commandLine "AT+CCERTDOWN=" [inQuotes slot, toString data.length] := by
    show "AT+CCERTDOWN=" ++ inQuotes slot ++ "," ++ toString data.length = _
    apply String.toList_inj.mp
    simp [commandLine, inQuotes]
  have announced : AtModem.Clean s!"AT+CCERTDOWN={inQuotes slot},{data.length}" [slot] := by
    rw [line]
    exact clean_commandLine_one (by decide) (by decide)
      ((Sound.inQuotes h).cons ((Sound.toString _).cons .nil)) h List.mem_cons_self
  exact List.forall_mem_cons.mpr ⟨announced, List.forall_mem_singleton.mpr trivial⟩

theorem clean_overwriting {slot : String} (h : quotable slot = true) (data : Bytes) :
    ∀ p ∈ overwriting data slot, p.Clean :=
  List.forall_mem_cons.mpr ⟨clean_listing, List.forall_mem_cons.mpr
    ⟨clean_removal h, clean_storing h data⟩⟩

/-- The line that opens a session is clean if the host can be quoted. -/
theorem clean_opening {host : String} (h : quotable host = true) (session : SessionId) (port : Nat) :
    AtModem.Clean s!"AT+CCHOPEN={session},\"{host}\",{port}" [host] := by
  have line : s!"AT+CCHOPEN={session},\"{host}\",{port}" =
      commandLine "AT+CCHOPEN=" [toString session.toNat, inQuotes host, toString port] := by
    show "AT+CCHOPEN=" ++ toString session.toNat ++ ",\"" ++ host ++ "\"," ++ toString port = _
    apply String.toList_inj.mp
    simp [commandLine, inQuotes]
  rw [line]
  exact clean_commandLine_one (by decide) (by decide)
    ((Sound.toString _).cons ((Sound.inQuotes h).cons ((Sound.toString _).cons .nil))) h (by simp)

/-- The line that acquires a client is clean if its identifier can be quoted. -/
theorem clean_acquiring {clientId : String} (h : quotable clientId = true) (client : ClientIndex)
    (useSsl : Bool) :
    AtModem.Clean s!"AT+CMQTTACCQ={client},\"{clientId}\",{flag useSsl}" [clientId] := by
  have line : s!"AT+CMQTTACCQ={client},\"{clientId}\",{flag useSsl}" =
      commandLine "AT+CMQTTACCQ=" [toString client.toNat, inQuotes clientId, flag useSsl] := by
    show "AT+CMQTTACCQ=" ++ toString client.toNat ++ ",\"" ++ clientId ++ "\"," ++ flag useSsl = _
    apply String.toList_inj.mp
    simp [commandLine, inQuotes]
  rw [line]
  exact clean_commandLine_one (by decide) (by decide)
    ((Sound.toString _).cons ((Sound.inQuotes h).cons ((Sound.flag _).cons .nil))) h (by simp)

/-- The line that describes a request is clean if the value can be quoted, whichever parameter it is
    for. -/
theorem clean_describing {value : String} (h : quotable value = true) (what : RequestText) :
    AtModem.Clean s!"AT+HTTPPARA=\"{what.parameter}\",\"{value}\"" [value] := by
  have line : s!"AT+HTTPPARA=\"{what.parameter}\",\"{value}\"" =
      commandLine "AT+HTTPPARA=" [inQuotes what.parameter, inQuotes value] := by
    show "AT+HTTPPARA=\"" ++ what.parameter ++ "\",\"" ++ value ++ "\"" = _
    apply String.toList_inj.mp
    simp [commandLine, inQuotes]
  have name : quotable what.parameter = true := by cases what <;> decide
  rw [line]
  exact clean_commandLine_one (by decide) (by decide)
    ((Sound.inQuotes name).cons ((Sound.inQuotes h).cons .nil)) h (by simp)

/-- The server is the whole address or a part of it, so it stands in the line as it is. -/
theorem infix_brokerAddress (server : String) (port : Nat) :
    server.toList <:+: (Mqtt.brokerAddress server port).toList := by
  unfold Mqtt.brokerAddress
  split
  · show server.toList <:+: (server ++ ":" ++ toString port).toList
    exact ⟨[], ':' :: (toString port).toList, by simp⟩
  · show server.toList <:+: ("tcp://" ++ server ++ ":" ++ toString port).toList
    exact ⟨"tcp://".toList, ':' :: (toString port).toList, by simp⟩

/-- Around a server that can be quoted the address can be. -/
theorem quotable_brokerAddress {server : String} (h : quotable server = true) (port : Nat) :
    quotable (Mqtt.brokerAddress server port) = true := by
  have number := quotable_toString port
  have plain : quotable "tcp://" = true := by decide
  have colon : quotable ":" = true := by decide
  unfold Mqtt.brokerAddress
  split
  · show quotable (server ++ ":" ++ toString port) = true
    simp only [quotable_append, h, number, colon, Bool.and_self]
  · show quotable ("tcp://" ++ server ++ ":" ++ toString port) = true
    simp only [quotable_append, h, number, colon, plain, Bool.and_self]

/-- The parameters of a login come last, so that a line without one is a shorter row.  With it both
    forms of the line are lists of parameters, and one lemma on such lists covers them. -/
theorem connection_eq (client : ClientIndex) (server : String) (port : Nat)
    (params : Mqtt.ConnectParams) :
    connection client server port params =
      .line (commandLine "AT+CMQTTCONNECT=" ([toString client.toNat,
        inQuotes (Mqtt.brokerAddress server port), toString params.keepaliveSecs,
        flag params.cleanSession] ++ (login params.credentials).map inQuotes))
        (server :: login params.credentials) := by
  obtain ⟨keepalive, clean, credentials⟩ := params
  let front := "AT+CMQTTCONNECT=" ++ toString client.toNat ++ ",\"" ++ Mqtt.brokerAddress server port ++
    "\"," ++ toString keepalive ++ "," ++ flag clean
  rcases credentials with _ | ⟨user, password⟩
  · refine congrArg (Piece.line · [server]) (String.toList_inj.mp ?_)
    show (front ++ "").toList = _
    simp [front, commandLine, login, inQuotes]
  · refine congrArg (Piece.line · [server, user, password]) (String.toList_inj.mp ?_)
    show (front ++ (",\"" ++ user ++ "\",\"" ++ password ++ "\"")).toList = _
    simp [front, commandLine, login, inQuotes]

/-- The line that connects to a broker is clean if all its texts can be quoted, with a login or
    without.  The address is put together from the server and the port, and is quoted as a whole. -/
theorem clean_connection {server : String} {params : Mqtt.ConnectParams}
    (h : ∀ text ∈ server :: login params.credentials, quotable text = true) (client : ClientIndex)
    (port : Nat) : (connection client server port params).Clean := by
  obtain ⟨hs, hl⟩ := List.forall_mem_cons.mp h
  have address := quotable_brokerAddress hs port
  have logins : ∀ f ∈ (login params.credentials).map inQuotes, Sound f := by
    intro f hf
    obtain ⟨text, mem, rfl⟩ := List.mem_map.mp hf
    exact .inQuotes (hl text mem)
  rw [connection_eq]
  refine clean_commandLine (List.cons_ne_nil _ _) (by decide) (by decide) ?_ ?_
  · exact (Sound.toString _).cons ((Sound.inQuotes address).cons ((Sound.toString _).cons
      ((Sound.flag _).cons logins)))
  · refine List.forall_mem_cons.mpr ⟨⟨_, infix_brokerAddress server port, address, ?_⟩, ?_⟩
    · exact List.mem_cons_of_mem _ List.mem_cons_self
    · intro text mem
      exact ⟨text, List.infix_refl _, hl text mem,
        List.mem_append_right _ (List.mem_map_of_mem mem)⟩

end QuotingMethod
end AtModem
