import GuardedRun.Engine.Http
import GuardedRun.Proofs.EnvelopeReading
import GuardedRun.Proofs.Naming

/-! What the outcome of an exchange makes of a call, however envelopes are read. A response is a refusal,
one with the status of an error, an agreement, or no envelope; data that came with an agreement may still
not be what the call is to be answered with. -/

namespace GuardedRun.Http

/-- What is heard of a refusal: its message, or a substitute for one that says nothing. -/
def Refusal.heard (refusal : Refusal) : String :=
  if Text.trim refusal.message = "" then "unspecified engine error" else refusal.message

/-- A call is answered, refused, answered with what cannot be read, or not answered by the engine, and
the outcome of the exchange tells which. -/
structure Classified (read : Envelope.Reader) (call : Call) (outcome : Outcome)
    (r : Except EngineError call.Reply) : Prop where
  answered : ∀ reply, r = .ok reply ↔ ∃ response refusal data, outcome = .ok response ∧
    response.status < 400 ∧ read response.body = .ok ⟨true, refusal, data⟩ ∧
    call.decodeReply data = .ok reply
  refused : ∀ method message log, r = .error (.application method message log) ↔
    method = call.method ∧ ∃ response refusal data, outcome = .ok response ∧
      read response.body = .ok ⟨false, refusal, data⟩ ∧
      message = (refusal.getD {}).heard ∧ log = (refusal.getD {}).log
  garbled : (∃ method reason, r = .error (.protocol method reason)) ↔ ∃ response,
    outcome = .ok response ∧ response.status < 400 ∧
      ((∀ envelope, read response.body ≠ .ok envelope) ∨
        ∃ refusal data, read response.body = .ok ⟨true, refusal, data⟩ ∧
          ∀ reply, call.decodeReply data ≠ .ok reply)
  unheard : ∀ method reason, r = .error (.communication method reason) ↔ method = call.method ∧
    (outcome = .error reason ∨ ∃ response, outcome = .ok response ∧ 400 ≤ response.status ∧
      (∀ refusal data, read response.body ≠ .ok ⟨false, refusal, data⟩) ∧
      reason = s!"http status {response.status}")
  /-- An error names the method that was called. -/
  named : ∀ e, r = .error e → e.method = call.method

section

variable {read : Envelope.Reader} {method reason : String} {outcome : Outcome} {response : Response}
  {refusal : Option Refusal} {data : Json} {e : EngineError}

theorem refused_eq (method : String) (refusal : Option Refusal) : Http.refused method refusal =
    .application method (refusal.getD {}).heard (refusal.getD {}).log := by
  unfold Http.refused Refusal.heard
  by_cases hblank : Text.isBlankText (refusal.getD {}).message = true
  · simp [hblank, Text.isBlankText_iff.mp hblank]
  · simp [hblank, mt Text.isBlankText_iff.mpr hblank]

/-- A refusal counts whatever the status. -/
theorem dataOf_refused (hread : read response.body = .ok ⟨false, refusal, data⟩) :
    dataOf read method (.ok response) =
      .error (.application method (refusal.getD {}).heard (refusal.getD {}).log) := by
  rw [dataOf, hread]
  exact congrArg Except.error (refused_eq method refusal)

theorem dataOf_agreed (hread : read response.body = .ok ⟨true, refusal, data⟩)
    (hstatus : response.status < 400) : dataOf read method (.ok response) = .ok data := by
  rw [dataOf, hread]
  exact if_pos hstatus

theorem dataOf_failed (hread : ∀ refusal data, read response.body ≠ .ok ⟨false, refusal, data⟩)
    (hstatus : 400 ≤ response.status) : dataOf read method (.ok response) =
      .error (.communication method s!"http status {response.status}") := by
  have hhigh : ¬ response.status < 400 := by omega
  rw [dataOf]
  rcases henvelope : read response.body with reason | ⟨ok, refusal, data⟩
  · exact if_neg hhigh
  · cases ok with
    | true => exact if_neg hhigh
    | false => exact absurd henvelope (hread refusal data)

theorem dataOf_unread (hread : read response.body = .error reason) (hstatus : response.status < 400) :
    dataOf read method (.ok response) = .error (.protocol method reason) := by
  rw [dataOf, hread]
  exact if_pos hstatus

/-- A response is a refusal, one of an error's status, an agreement or no envelope. -/
theorem response_cases (read : Envelope.Reader) (response : Response) :
    (∃ refusal data, read response.body = .ok ⟨false, refusal, data⟩) ∨
      (400 ≤ response.status ∧ ∀ refusal data, read response.body ≠ .ok ⟨false, refusal, data⟩) ∨
      response.status < 400 ∧ ((∃ refusal data, read response.body = .ok ⟨true, refusal, data⟩) ∨
        ∃ reason, read response.body = .error reason) := by
  -- a refusal comes first: the status counts only where there is none
  rcases hread : read response.body with reason | ⟨ok, refusal, data⟩
  · rcases Nat.lt_or_ge response.status 400 with hlow | hhigh
    · exact .inr (.inr ⟨hlow, .inr ⟨reason, rfl⟩⟩)
    · exact .inr (.inl ⟨hhigh, nofun⟩)
  · cases ok with
    | false => exact .inl ⟨refusal, data, rfl⟩
    | true =>
      rcases Nat.lt_or_ge response.status 400 with hlow | hhigh
      · exact .inr (.inr ⟨hlow, .inl ⟨refusal, data, rfl⟩⟩)
      · exact .inr (.inl ⟨hhigh, nofun⟩)

theorem dataOf_eq_ok : dataOf read method outcome = .ok data ↔ ∃ response refusal,
    outcome = .ok response ∧ response.status < 400 ∧
      read response.body = .ok ⟨true, refusal, data⟩ := by
  constructor
  · intro h
    cases outcome with
    | error reason => cases h
    | ok response =>
      rcases response_cases read response with ⟨refusal, data', hread⟩ | ⟨hstatus, hread⟩ |
        ⟨hstatus, ⟨refusal, data', hread⟩ | ⟨reason, hread⟩⟩
      · rw [dataOf_refused hread] at h
        cases h
      · rw [dataOf_failed hread hstatus] at h
        cases h
      · rw [dataOf_agreed hread hstatus] at h
        cases h
        exact ⟨response, refusal, rfl, hstatus, hread⟩
      · rw [dataOf_unread hread hstatus] at h
        cases h
  · rintro ⟨response, refusal, rfl, hstatus, hread⟩
    exact dataOf_agreed hread hstatus

/-- There is no data without a response, where the engine refuses, with the status of an error, and
where no envelope came back. -/
theorem dataOf_eq_error : dataOf read method outcome = .error e ↔
    (∃ reason, outcome = .error reason ∧ e = .communication method reason) ∨
    ∃ response, outcome = .ok response ∧
      ((∃ refusal data, read response.body = .ok ⟨false, refusal, data⟩ ∧
          e = .application method (refusal.getD {}).heard (refusal.getD {}).log) ∨
        ((400 ≤ response.status ∧ ∀ refusal data, read response.body ≠ .ok ⟨false, refusal, data⟩) ∧
          e = .communication method s!"http status {response.status}") ∨
        ∃ reason, (response.status < 400 ∧ read response.body = .error reason) ∧
          e = .protocol method reason) := by
  constructor
  · intro h
    cases outcome with
    | error reason =>
      cases h
      exact .inl ⟨reason, rfl, rfl⟩
    | ok response =>
      refine .inr ⟨response, rfl, ?_⟩
      rcases response_cases read response with ⟨refusal, data, hread⟩ | ⟨hstatus, hread⟩ |
        ⟨hstatus, ⟨refusal, data, hread⟩ | ⟨reason, hread⟩⟩
      · rw [dataOf_refused hread] at h
        cases h
        exact .inl ⟨refusal, data, hread, rfl⟩
      · rw [dataOf_failed hread hstatus] at h
        cases h
        exact .inr (.inl ⟨⟨hstatus, hread⟩, rfl⟩)
      · rw [dataOf_agreed hread hstatus] at h
        cases h
      · rw [dataOf_unread hread hstatus] at h
        cases h
        exact .inr (.inr ⟨reason, ⟨hstatus, hread⟩, rfl⟩)
  · rintro (⟨reason, rfl, rfl⟩ | ⟨response, rfl, ⟨refusal, data, hread, rfl⟩ |
      ⟨⟨hstatus, hread⟩, rfl⟩ | ⟨reason, ⟨hstatus, hread⟩, rfl⟩⟩)
    · rfl
    · exact dataOf_refused hread
    · exact dataOf_failed hread hstatus
    · exact dataOf_unread hread hstatus

variable {call : Call} {reply : call.Reply}

theorem interpret_eq_ok : interpret read call outcome = .ok reply ↔
    ∃ data, dataOf read call.method outcome = .ok data ∧ call.decodeReply data = .ok reply := by
  rw [interpret]
  cases dataOf read call.method outcome with
  | error e => simp [bind, Except.bind]
  | ok data => cases hdecode : call.decodeReply data <;> simp [bind, Except.bind, hdecode]

theorem interpret_eq_error : interpret read call outcome = .error e ↔
    dataOf read call.method outcome = .error e ∨
    ∃ data fault, dataOf read call.method outcome = .ok data ∧ call.decodeReply data = .error fault ∧
      e = .protocol call.method fault.message := by
  rw [interpret]
  cases dataOf read call.method outcome with
  | error e' => simp [bind, Except.bind]
  | ok data => cases hdecode : call.decodeReply data <;> simp [bind, Except.bind, hdecode, eq_comm]

/-- What is no protocol error comes of the exchange alone. -/
theorem interpret_eq_error_of_exchange (h : ∀ method reason, e ≠ .protocol method reason) :
    interpret read call outcome = .error e ↔ dataOf read call.method outcome = .error e := by
  rw [interpret_eq_error, or_iff_left]
  rintro ⟨data, fault, -, -, rfl⟩
  exact h _ _ rfl

end

/-- Every outcome of an exchange means exactly one thing, whatever the call. -/
theorem classified_interpret (read : Envelope.Reader) (call : Call) (outcome : Outcome) :
    Classified read call outcome (interpret read call outcome) where
  answered reply := by
    rw [interpret_eq_ok]
    constructor
    · rintro ⟨data, hdata, hreply⟩
      obtain ⟨response, refusal, houtcome, hstatus, hread⟩ := dataOf_eq_ok.mp hdata
      exact ⟨response, refusal, data, houtcome, hstatus, hread, hreply⟩
    · rintro ⟨response, refusal, data, houtcome, hstatus, hread, hreply⟩
      exact ⟨data, dataOf_eq_ok.mpr ⟨response, refusal, houtcome, hstatus, hread⟩, hreply⟩
  refused method message log := by
    rw [interpret_eq_error_of_exchange (by simp), dataOf_eq_error]
    constructor
    · rintro (⟨reason, -, h⟩ | ⟨response, houtcome, ⟨refusal, data, hread, h⟩ | ⟨-, h⟩ | ⟨_, -, h⟩⟩)
      · cases h
      · cases h
        exact ⟨rfl, response, refusal, data, houtcome, hread, rfl, rfl⟩
      · cases h
      · cases h
    · rintro ⟨rfl, response, refusal, data, houtcome, hread, rfl, rfl⟩
      exact .inr ⟨response, houtcome, .inl ⟨refusal, data, hread, rfl⟩⟩
  garbled := by
    constructor
    · rintro ⟨method, reason, h⟩
      rcases interpret_eq_error.mp h with h | ⟨data, fault, hdata, hfault, -⟩
      · rcases dataOf_eq_error.mp h with ⟨_, _, he⟩ | ⟨response, houtcome, ⟨_, _, _, he⟩ | ⟨-, he⟩ |
          ⟨reason', ⟨hstatus, hread⟩, -⟩⟩
        · cases he
        · cases he
        · cases he
        · refine ⟨response, houtcome, hstatus, .inl fun envelope henvelope => ?_⟩
          rw [hread] at henvelope
          cases henvelope
      · -- the engine agreed, and its data cannot be read
        obtain ⟨response, refusal, houtcome, hstatus, hread⟩ := dataOf_eq_ok.mp hdata
        refine ⟨response, houtcome, hstatus, .inr ⟨refusal, data, hread, fun reply hreply => ?_⟩⟩
        rw [hfault] at hreply
        cases hreply
    · rintro ⟨response, houtcome, hstatus, hread | ⟨refusal, data, hread, hdecode⟩⟩
      · cases hreason : read response.body with
        | ok envelope => exact absurd hreason (hread envelope)
        | error reason =>
          have hdata : dataOf read call.method outcome = .error (.protocol call.method reason) :=
            dataOf_eq_error.mpr
              (.inr ⟨response, houtcome, .inr (.inr ⟨reason, ⟨hstatus, hreason⟩, rfl⟩)⟩)
          exact ⟨_, _, interpret_eq_error.mpr (.inl hdata)⟩
      · have hdata : dataOf read call.method outcome = .ok data :=
          dataOf_eq_ok.mpr ⟨response, refusal, houtcome, hstatus, hread⟩
        cases hfault : call.decodeReply data with
        | ok reply => exact absurd hfault (hdecode reply)
        | error fault =>
          exact ⟨_, _, interpret_eq_error.mpr (.inr ⟨data, fault, hdata, hfault, rfl⟩)⟩
  unheard method reason := by
    rw [interpret_eq_error_of_exchange (by simp), dataOf_eq_error]
    constructor
    · rintro (⟨reason', houtcome, h⟩ | ⟨response, houtcome, ⟨_, _, _, h⟩ | ⟨⟨hstatus, hread⟩, h⟩ |
        ⟨_, -, h⟩⟩)
      · cases h
        exact ⟨rfl, .inl houtcome⟩
      · cases h
      · cases h
        exact ⟨rfl, .inr ⟨response, houtcome, hstatus, hread, rfl⟩⟩
      · cases h
    · rintro ⟨rfl, houtcome | ⟨response, houtcome, hstatus, hread, rfl⟩⟩
      · exact .inl ⟨reason, houtcome, rfl⟩
      · exact .inr ⟨response, houtcome, .inr (.inl ⟨⟨hstatus, hread⟩, rfl⟩)⟩
  named e h := by
    rcases interpret_eq_error.mp h with h | ⟨data, fault, -, -, rfl⟩
    · rcases dataOf_eq_error.mp h with ⟨reason, -, rfl⟩ | ⟨response, -, ⟨refusal, data, -, rfl⟩ |
        ⟨-, rfl⟩ | ⟨reason, -, rfl⟩⟩ <;> rfl
    · rfl

/-- However envelopes are read, every outcome of an exchange means exactly one thing to a call; and read as
JSON, the bodies that count as envelopes are the whole ones that describe an envelope, with data of null
and without a refusal where they have none. -/
theorem interpret_classified :
    (∀ read call outcome, Classified read call outcome (interpret read call outcome)) ∧
    ∀ body envelope, Envelope.read body = .ok envelope ↔ Envelope.Spells body envelope :=
  ⟨classified_interpret, fun _ _ => Envelope.read_eq_ok⟩

/-- A refusal that says nothing is heard with the status of an error, too. -/
example : interpret Envelope.read .ping (.ok ⟨500, .ofText "\x7b\"ok\": false\x7d"⟩) =
    .error (.application "ping" "unspecified engine error" []) := by
  decide +kernel

/-- An agreement without data tells that an item has no test set. -/
example (item : Item) : interpret Envelope.read (.itemTestSet item)
    (.ok ⟨200, .ofText "\x7b\"ok\": true\x7d"⟩) = .ok none := by
  rfl

end GuardedRun.Http
