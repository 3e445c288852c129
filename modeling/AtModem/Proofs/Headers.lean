/-
  How long the headers of an HTTP client become.

  Three calls write the headers.  One begins anew with the entries that every request has, and does not
  look at their length; the others add an entry behind what is there, if all of it stays within the limit.
  So the headers always begin with the first entries, and are longer than the limit only if these alone
  are: then nothing can be added, and the headers are just these entries (`Bounded`).  Each call keeps
  that, and so does whatever goes on between calls, since nothing else touches the headers or what the
  first entries are made of.

  A request sends a fixed row of commands, and one of them carries the headers as they are.  What the
  device is given is therefore as long as the client's headers and no longer.
-/
import AtModem.Proofs.Injection

namespace AtModem

namespace Base64

/-! ## The length of a token -/

theorem utf8Size_letter (n : Nat) : (letter n).utf8Size = 1 := by
  have small : ∀ n : Fin 63, (letter n.val).utf8Size = 1 := by decide
  by_cases h : n < 63
  · exact small ⟨n, h⟩
  · unfold letter
    rw [if_neg (by omega), if_neg (by omega), if_neg (by omega), if_neg (by omega)]
    rfl

/-- Every three bytes take four letters, and so does what is left of them. -/
theorem utf8ByteSize_encode (bs : Bytes) : (encode bs).utf8ByteSize = 4 * ((bs.length + 2) / 3) := by
  have filling : '='.utf8Size = 1 := rfl
  have nothing : (String.ofList []).utf8ByteSize = 0 := by decide
  unfold encode
  fun_induction letters bs with
  | case1 => rfl
  | case2 a =>
    simp only [Utf8.utf8ByteSize_cons, utf8Size_letter, filling, nothing, List.length_cons, List.length_nil]
  | case3 a b =>
    simp only [Utf8.utf8ByteSize_cons, utf8Size_letter, filling, nothing, List.length_cons, List.length_nil]
  | case4 a b c rest ih =>
    simp only [Utf8.utf8ByteSize_cons, utf8Size_letter, ih, List.length_cons]
    omega

end Base64

namespace Http

/-- The command sets the headers of a request; told by how its text begins. -/
def SetsHeaders (p : Piece) : Prop :=
  ∃ text quoted, p = .line text quoted ∧ "AT+HTTPPARA=\"USERDATA\",".toList <+: text.toList

/-- A command that begins otherwise does something else: neither of the two beginnings continues the
    other. -/
theorem not_setsHeaders (start : String) {rest text : String} {quoted : List String}
    (begins : text = start ++ rest)
    (apart : ¬"AT+HTTPPARA=\"USERDATA\",".toList <+: start.toList)
    (apart' : ¬start.toList <+: "AT+HTTPPARA=\"USERDATA\",".toList) :
    ¬SetsHeaders (.line text quoted) := by
  rintro ⟨text', quoted', same, sets⟩
  obtain ⟨rfl, rfl⟩ := Piece.line.inj same
  rw [begins, String.toList_append] at sets
  rcases List.prefix_or_prefix_of_prefix sets (List.prefix_append _ _) with h | h
  · exact apart h
  · exact apart' h

namespace Client

open Engine ClientM

/-! ## What a request sends -/

/-- The command that describes a request in one respect. -/
def describing (what : RequestText) (value : String) : Piece :=
  .line s!"AT+HTTPPARA=\"{what.parameter}\",\"{value}\"" [value]

/-- The upload of a body: its announcement, then its bytes; an empty body is not sent. -/
def uploading (body : Bytes) : List Piece :=
  if body.isEmpty then [] else [.line s!"AT+HTTPDATA={body.length},{30}" [], .data body]

/-- All that a request sends if nothing keeps it from going on, in this order; where it fails, a
    front of this. -/
def requesting (c : Client) (method : Method) (path : String) (body : Bytes)
    (contentType accept : Option String) : List Piece :=
  [describing .url s!"{c.baseUrl}:{c.port}/{path}", describing .contentType (contentType.getD "text/plain"),
    describing .accept (accept.getD "*/*"), describing .headers c.headers] ++
  uploading body ++ [.line s!"AT+HTTPACTION={method.code}" []]

/-- Only one of the parameters sets the headers, since their names differ. -/
theorem eq_headers_of_setsHeaders {what : RequestText} {value : String}
    (sets : SetsHeaders (describing what value)) : what = .headers := by
  have begins : s!"AT+HTTPPARA=\"{what.parameter}\",\"{value}\"" =
      "AT+HTTPPARA=\"" ++ what.parameter ++ "\"," ++ ("\"" ++ value ++ "\"") := by
    show "AT+HTTPPARA=\"" ++ what.parameter ++ "\",\"" ++ value ++ "\"" = _
    apply String.toList_inj.mp
    simp
  cases what with
  | headers => rfl
  | url => exact absurd sets (not_setsHeaders _ begins (by decide) (by decide))
  | contentType => exact absurd sets (not_setsHeaders _ begins (by decide) (by decide))
  | accept => exact absurd sets (not_setsHeaders _ begins (by decide) (by decide))

/-- Neither the announcement of a body nor the body counts as a command that sets headers. -/
theorem not_setsHeaders_uploading {body : Bytes} {p : Piece} (mem : p ∈ uploading body) :
    ¬SetsHeaders p := by
  unfold uploading at mem
  split at mem
  · cases mem
  · rcases List.mem_pair.mp mem with rfl | rfl
    · have begins : s!"AT+HTTPDATA={body.length},{30}" =
          "AT+HTTPDATA=" ++ (toString body.length ++ ("," ++ toString 30)) :=
        String.append_assoc.trans String.append_assoc
      exact not_setsHeaders _ begins (by decide) (by decide)
    · rintro ⟨text, quoted, line, -⟩
      cases line

/-- The headers of a request are those of its client: the one command that sets them carries them as
    they are.  The other commands of a request begin otherwise, as comparing their texts shows. -/
theorem eq_of_setsHeaders {c : Client} {method : Method} {path : String} {body : Bytes}
    {contentType accept : Option String} {p : Piece}
    (mem : p ∈ requesting c method path body contentType accept) (sets : SetsHeaders p) :
    p = describing .headers c.headers := by
  rcases List.mem_append.mp mem with mem | mem
  · rcases List.mem_append.mp mem with mem | mem
    · simp only [List.mem_cons, List.not_mem_nil, or_false] at mem
      rcases mem with rfl | rfl | rfl | rfl
      · cases eq_headers_of_setsHeaders sets
      · cases eq_headers_of_setsHeaders sets
      · cases eq_headers_of_setsHeaders sets
      · rfl
    · exact absurd sets (not_setsHeaders_uploading mem)
  · obtain rfl := List.mem_singleton.mp mem
    have other : ¬SetsHeaders (.line s!"AT+HTTPACTION={method.code}" []) :=
      not_setsHeaders "AT+HTTPACTION=" rfl (by decide) (by decide)
    exact absurd sets other

section

variable {σ : Type} [Device σ] {Q : Piece → Prop} {e : Engine σ}

theorem issues_describing {what : RequestText} {value : String} (ok : Q (describing what value)) :
    Issues Q id [describing what value] (Http.setText what.parameter value) e :=
  (obeys_setText fun _ => ok).issues

theorem issues_action {method : Method} (ok : Q (.line s!"AT+HTTPACTION={method.code}" [])) :
    Issues Q id [.line s!"AT+HTTPACTION={method.code}" []] (action method) e := by
  refine Issues.ofEngine ((Issues.plainCommand ok).then_listening fun _ => ?_)
  refine keptByListening_farEnd.bind (keptByListening_farEnd.await _ _ _ _) fun o => ?_
  split
  · exact keptByListening_farEnd.onStream Stream.keptByReading_farEnd.readResult
  · exact keptByListening_farEnd.bind (keptByListening_farEnd.ofResult _) fun _ =>
      keptByListening_farEnd.throw _

/-- An empty body is not uploaded, and any other goes before the command that runs the request. -/
theorem issues_body {method : Method} {body : Bytes} (upload : ∀ p ∈ uploading body, Q p)
    (act : Q (.line s!"AT+HTTPACTION={method.code}" [])) :
    Issues Q id (uploading body ++ [.line s!"AT+HTTPACTION={method.code}" []])
      (if !body.isEmpty then data body 30 >>= fun _ => action method else action method) e := by
  unfold uploading at upload ⊢
  cases empty : body.isEmpty with
  | true => exact issues_action act
  | false =>
    rw [empty, if_neg Bool.false_ne_true] at upload
    rw [if_neg Bool.false_ne_true]
    simp only [List.forall_mem_cons] at upload
    obtain ⟨announces, carries, -⟩ := upload
    let u : Upload :=
      { command := s!"AT+HTTPDATA={body.length},{30}", data := body, prompt := Utf8.encode "DOWNLOAD"
        promptTimeout := 10000, confirmTimeout := some (30 * 1000 + 1000) }
    have sent : Issues Q id [.line u.command [], .data u.data] (upload u) e := .upload announces carries
    exact sent.ofEngine.bind fun _ _ _ => issues_action act

/-- What a request sends is what was said, and all of it if the request succeeds.  Where it fails
    the commands behind are missing, but those that were sent are of these. -/
theorem issues_request (s : Client × Engine σ) (method : Method) (path : String) (body : Bytes)
    (contentType accept : Option String)
    (ok : ∀ p ∈ requesting s.1 method path body contentType accept, Q p) :
    Issues Q Prod.snd (requesting s.1 method path body contentType accept)
      (request method path body contentType accept) s := by
  obtain ⟨c, e⟩ := s
  dsimp only at ok ⊢
  rw [← List.append_nil (requesting c method path body contentType accept)]
  refine issues_modify rfl (.get_bind ?_)
  dsimp only
  refine Issues.bind (.beside ?_) fun result t _ => ?_
  · unfold requesting at ok ⊢
    simp only [List.forall_mem_append, List.forall_mem_cons] at ok
    obtain ⟨⟨⟨url, content, accept, headers, -⟩, upload⟩, act, -⟩ := ok
    rw [List.append_assoc]
    refine (issues_describing url).bind fun _ _ _ => (issues_describing content).bind fun _ _ _ =>
      (issues_describing accept).bind fun _ _ _ => (issues_describing headers).bind fun _ _ _ => ?_
    exact issues_body upload act
  · -- the outcome is only remembered
    obtain ⟨d, f⟩ := t
    exact issues_modify rfl (.skip rfl fun _ h => absurd h List.not_mem_nil)

/-- Of its client a request changes only the outcome of the last request; the headers are not
    touched by sending them. -/
theorem along_request (method : Method) (path : String) (body : Bytes) (contentType accept : Option String) :
    Along (fun s t : Client × Engine σ => ∃ last, t.1 = { s.1 with last })
      (request method path body contentType accept) := by
  have refl (s : Client × Engine σ) : ∃ last, s.1 = { s.1 with last } := ⟨_, rfl⟩
  have trans (s t u : Client × Engine σ) : (∃ last, t.1 = { s.1 with last }) →
      (∃ last, u.1 = { t.1 with last }) → ∃ last, u.1 = { s.1 with last } := by
    rintro ⟨_, h⟩ ⟨last, k⟩
    exact ⟨last, by rw [k, h]⟩
  refine Along.bind trans (fun _ => ⟨none, rfl⟩) fun _ => Along.bind trans refl fun (c, _) =>
    Along.bind trans (fun (b, e) => ?_) fun result =>
      Along.bind trans (fun _ => ⟨some result, rfl⟩) fun _ => refl
  rw [endState_beside]
  exact refl (b, e)

end

/-! ## The headers -/

/-- The headers begin with these entries, and only these alone may pass the limit.  The first
    entries are set without being measured, so the invariant has to let them through, and it lets
    nothing else through. -/
structure Bounded (first : String) (c : Client) : Prop where
  defaults : c.defaultHeaders = first
  begins : ∃ added, c.headers = first ++ added
  fits : c.headers.utf8ByteSize ≤ maxHeaderLength ∨ c.headers = first

/-- An entry is added behind what is there if all of it stays within the limit; otherwise it is refused, and
    nothing changes. -/
def Adds (entry : String) (c : Client) (result : Except ClientError Client) (after : Client) : Prop :=
  let headers := c.headers ++ entry
  (headers.utf8ByteSize ≤ maxHeaderLength ∧ after = { c with headers } ∧ result = .ok after) ∨
  (maxHeaderLength < headers.utf8ByteSize ∧ after = c ∧
    result = .error (.headerTooLong maxHeaderLength))

variable {σ : Type} {first : String} {c : Client}

/-- A header is added behind the others or refused, by whether all of it stays within the limit. -/
theorem adds_addHeader (name value : String) (c : Client) :
    Adds (entry name value) c (c.addHeader name value) ((c.addHeader name value).toOption.getD c) := by
  unfold addHeader
  by_cases beyond : maxHeaderLength < (c.headers ++ entry name value).utf8ByteSize
  · right
    rw [if_pos beyond]
    exact ⟨beyond, rfl, rfl⟩
  · left
    rw [if_neg beyond]
    exact ⟨Nat.le_of_not_lt beyond, rfl, rfl⟩

/-- A login takes a third more than its name and password, and 25 bytes around that.  Each three
    bytes become four, with the last group filled up. -/
theorem size_login (user password : String) :
    (entry "Authorization" ("Basic " ++
      Base64.encode (Utf8.encode (user ++ ":" ++ password)))).utf8ByteSize =
      25 + 4 * ((user.utf8ByteSize + password.utf8ByteSize + 3) / 3) := by
  have size : (Utf8.encode (user ++ ":" ++ password)).length =
      user.utf8ByteSize + 1 + password.utf8ByteSize := by
    show (user ++ ":" ++ password).utf8ByteSize = _
    rw [String.utf8ByteSize_append, String.utf8ByteSize_append]
    rfl
  have around : "Authorization".utf8ByteSize + ": ".utf8ByteSize + "Basic ".utf8ByteSize +
      headerEnd.utf8ByteSize = 25 := by decide
  unfold entry
  simp only [String.utf8ByteSize_append, Base64.utf8ByteSize_encode, size]
  omega

/-- Beginning anew brings back just the first entries, however long they are. -/
theorem Bounded.reset (h : Bounded first c) : Bounded first c.resetHeader where
  defaults := h.defaults
  begins := ⟨"", h.defaults.trans String.append_empty.symm⟩
  fits := .inr h.defaults

/-- An entry that is added keeps within the limit; where the first entries are beyond it already,
    none is. -/
theorem Bounded.adds {entry : String} {result : Except ClientError Client} {after : Client}
    (h : Bounded first c) (adds : Adds entry c result after) : Bounded first after := by
  rcases adds with ⟨fits, rfl, -⟩ | ⟨-, rfl, -⟩
  · obtain ⟨added, begins⟩ := h.begins
    refine ⟨h.defaults, ⟨added ++ entry, ?_⟩, .inl fits⟩
    rw [begins, String.append_assoc]
  · exact h

/-! ## What goes on with a client -/

/-- What may go on with a client between two looks at its headers.  Requests are among them, since a
    request reads the headers and may not change them. -/
inductive Step (σ : Type) where
  | resetHeader
  | addHeader (name value : String)
  | addBasicAuth (user password : String)
  | request (method : Method) (path : String) (body : Bytes) (contentType accept : Option String)
  /-- Other certificates. -/
  | secure (ctx : SecureContext)
  /-- Anything that goes on with the engine. -/
  | engine (f : Engine σ → Engine σ)

/-- What a step leaves, whatever it has returned: a refused entry leaves the client as it was. -/
def Step.run [Device σ] (s : Client × Engine σ) : Step σ → Client × Engine σ
  | resetHeader => (s.1.resetHeader, s.2)
  | addHeader name value => ((s.1.addHeader name value).toOption.getD s.1, s.2)
  | addBasicAuth user password => ((s.1.addBasicAuth user password).toOption.getD s.1, s.2)
  | request method path body contentType accept =>
    endState (Client.request method path body contentType accept s)
  | secure ctx => ({ s.1 with secure := ctx }, s.2)
  | engine f => (s.1, f s.2)

variable [Device σ]

/-- Every step keeps the bound: three of them write headers, and the others leave them and what they
    are made of. -/
theorem Bounded.step {s : Client × Engine σ} (h : Bounded first s.1) (step : Step σ) :
    Bounded first (step.run s).1 := by
  cases step with
  | resetHeader => exact h.reset
  | addHeader name value => exact h.adds (adds_addHeader name value s.1)
  | addBasicAuth user password => exact h.adds (adds_addHeader "Authorization" _ s.1)
  | request method path body contentType accept =>
    obtain ⟨last, same⟩ := along_request method path body contentType accept s
    show Bounded first (endState (Client.request method path body contentType accept s)).1
    rw [same]
    exact ⟨h.defaults, h.begins, h.fits⟩
  | secure ctx => exact ⟨h.defaults, h.begins, h.fits⟩
  | engine f => exact h

theorem Bounded.run {s : Client × Engine σ} (h : Bounded first s.1) (steps : List (Step σ)) :
    Bounded first (steps.foldl Step.run s).1 := by
  induction steps generalizing s with
  | nil => exact h
  | cons step steps ih => exact ih (h.step step)

omit [Device σ] in
theorem bounded_of_create {server : String} {port : Nat} {useSsl : Bool} {userAgent : Option String}
    {ctx : ContextIndex} {e f : Engine σ} (created : create server port useSsl userAgent ctx e = .ok c f) :
    Bounded c.defaultHeaders c := by
  obtain ⟨handlers, g, -, made⟩ := bind_eq_ok created
  cases made
  exact ⟨rfl, ⟨"", String.append_empty.symm⟩, .inr rfl⟩

/-- The headers of a client are within the limit, whatever has been done with it and whatever came of that,
    if the entries that it begins with are; if these pass the limit, the headers never are anything else.
    An entry is added as it is if there is room for it, and else nothing changes; a login is such an entry.
    And a request gives the device these headers and no others. -/
theorem headers_within_limit {server : String} {port : Nat} {useSsl : Bool} {userAgent : Option String}
    {ctx : ContextIndex} {e f : Engine σ} (created : create server port useSsl userAgent ctx e = .ok c f)
    (steps : List (Step σ)) :
    let first := c.defaultHeaders
    let s := steps.foldl Step.run (c, f)
    let headers := s.1.headers
    (first.utf8ByteSize ≤ maxHeaderLength → headers.utf8ByteSize ≤ maxHeaderLength) ∧
    (maxHeaderLength < first.utf8ByteSize → headers = first) ∧
    (∃ added, headers = first ++ added) ∧
    (∀ name value, Adds (name ++ ": " ++ value ++ "\\r\\n") s.1 (s.1.addHeader name value)
      (Step.run s (.addHeader name value)).1) ∧
    (∀ user password,
      let token := Base64.encode (Utf8.encode (user ++ ":" ++ password))
      let login := "Authorization: Basic " ++ token ++ "\\r\\n"
      login.utf8ByteSize = 25 + 4 * ((user.utf8ByteSize + password.utf8ByteSize + 3) / 3) ∧
      Adds login s.1 (s.1.addBasicAuth user password) (Step.run s (.addBasicAuth user password)).1) ∧
    ∀ method path body contentType accept,
      Sent (fun p => SetsHeaders p → p = describing .headers headers)
        (requesting s.1 method path body contentType accept) s.2
        (Step.run s (.request method path body contentType accept)).2 := by
  intro first s headers
  have bounded : Bounded first s.1 := (bounded_of_create created).run steps
  obtain ⟨added, begins⟩ := bounded.begins
  refine ⟨fun within => ?_, fun beyond => ?_, ⟨added, begins⟩, fun name value => ?_,
    fun user password => ?_, fun method path body contentType accept => ?_⟩
  · rcases bounded.fits with fits | only
    · exact fits
    · have same : headers.utf8ByteSize = first.utf8ByteSize := congrArg String.utf8ByteSize only
      exact same ▸ within
  · rcases bounded.fits with fits | only
    · -- what is longer than the limit cannot stand at the beginning of what is not
      have longer : s.1.headers.utf8ByteSize = first.utf8ByteSize + added.utf8ByteSize := by
        rw [begins, String.utf8ByteSize_append]
      omega
    · exact only
  · exact adds_addHeader name value s.1
  · intro token login
    have same : login = entry "Authorization" ("Basic " ++ token) := by
      apply String.toList_inj.mp
      simp [login, entry, headerEnd]
    rw [same]
    exact ⟨size_login user password, adds_addHeader "Authorization" ("Basic " ++ token) s.1⟩
  · have issues := issues_request s method path body contentType accept fun p mem => eq_of_setsHeaders mem
    exact issues.sent

/-- A user agent of 230 bytes makes the first entries too long by one.  Nothing refuses it, and after an entry
    that is refused the headers are still those. -/
theorem headers_within_limit_passed :
    let agent := String.ofList (List.replicate 230 'a')
    let e : Engine Script := ofLink .standard (.ofDevice .silent)
    ∃ c f, create "h" 80 false (some agent) 0 e = .ok c f ∧ maxHeaderLength < c.defaultHeaders.utf8ByteSize ∧
      let s := [Step.addHeader "A" "b"].foldl Step.run (c, f)
      s.1.headers = c.defaultHeaders ∧ s.1.headers.utf8ByteSize = 257 := by
  intro agent e
  obtain ⟨c, f, created⟩ : ∃ c f, create "h" 80 false (some agent) 0 e = .ok c f := ⟨_, _, rfl⟩
  have first : c.defaultHeaders.utf8ByteSize = 257 := by
    obtain ⟨handlers, g, -, made⟩ := bind_eq_ok created
    cases made
    show (entry "Host" (((behind "https://" "h") <|> (behind "http://" "h")).getD "h") ++
      entry "User-Agent" agent).utf8ByteSize = 257
    decide +kernel
  have beyond : maxHeaderLength < c.defaultHeaders.utf8ByteSize := by
    rw [first]
    decide
  obtain ⟨-, only, -⟩ := headers_within_limit created [.addHeader "A" "b"]
  refine ⟨c, f, created, beyond, only beyond, ?_⟩
  rw [only beyond, first]

end Client
end Http
end AtModem
