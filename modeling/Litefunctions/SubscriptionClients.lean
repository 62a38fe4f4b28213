import Litefunctions.SubjectPatterns
import Mathlib.Logic.Function.Basic
import Std.Data.String.ToNat

/-!
# The subscriptions of a connection

A client of the broker numbers its subscriptions, keeps a handler for every
number and sends a line for each subscription that it makes or ends.  The
broker cuts the line into fields and keeps the subscriptions of the connection
by their numbers.  A subject that is not one field, or that the broker does not
accept, leaves the client with a handler that no message reaches.
-/

namespace Litefunctions

namespace Subject

open SeparatedText

/-- The broker accepts a subject whose tokens are not empty and in which only
the last token is `>`. -/
def IsAccepted (subject : String) : Prop :=
  "" ∉ tokens subject ∧ ">" ∉ (tokens subject).dropLast

instance decidableIsAccepted (subject : String) : Decidable (IsAccepted subject) :=
  inferInstanceAs (Decidable (_ ∧ _))

/-- A text that is one field of a line. -/
def IsField (text : String) : Prop :=
  text ≠ "" ∧ ∀ char ∈ text.toList, char.isWhitespace = false

instance decidableIsField (text : String) : Decidable (IsField text) :=
  haveI := List.decidableBAll (fun char : Char => char.isWhitespace = false) text.toList
  inferInstanceAs (Decidable (_ ∧ _))

/-- A subject to which a client can subscribe. -/
def CanSubscribe (subject : String) : Prop :=
  IsField subject ∧ IsAccepted subject

instance decidableCanSubscribe (subject : String) : Decidable (CanSubscribe subject) :=
  inferInstanceAs (Decidable (_ ∧ _))

/-- The fields of a text are its pieces between blanks. -/
def fields (text : String) : List String :=
  ((text.toList.splitOnP Char.isWhitespace).filter (· ≠ [])).map String.ofList

theorem isField_of_mem_fields {text field : String} (member : field ∈ fields text) :
    IsField field := by
  obtain ⟨piece, piecesMember, rfl⟩ := List.mem_map.mp member
  obtain ⟨cut, nonempty⟩ := List.mem_filter.mp piecesMember
  constructor
  · intro empty
    apply of_decide_eq_true nonempty
    simpa using congrArg String.toList empty
  · rw [String.toList_ofList]
    exact notMem_splitOnP cut

theorem fields_of_isField {field : String} (isField : IsField field) :
    fields field = [field] := by
  rw [fields, List.splitOnP_eq_singleton isField.2]
  simp [isField.1]

/-- A blank between two texts separates their fields. -/
theorem fields_append (first second : String) :
    fields (first ++ " " ++ second) = fields first ++ fields second := by
  have text : (first ++ " " ++ second).toList = first.toList ++ ' ' :: second.toList := by
    simp
  rw [fields, text, List.splitOnP_append_cons first.toList second.toList (by decide),
    List.filter_append, List.map_append]
  rfl

/-- A subject can be subscribed to if its tokens are fields and only the last
of them is `>`. -/
theorem canSubscribe_iff {subject : String} :
    CanSubscribe subject ↔
      (∀ token ∈ tokens subject, IsField token) ∧ ">" ∉ (tokens subject).dropLast := by
  constructor
  · rintro ⟨isField, noEmpty, noRest⟩
    refine ⟨fun token member => ⟨?_, fun char inToken => ?_⟩, noRest⟩
    · rintro rfl
      exact noEmpty member
    · have notDot : char ≠ '.' := by
        rintro rfl
        exact separator_notMem_pieces member inToken
      exact isField.2 char ((mem_pieces_iff notDot).mp ⟨token, member, inToken⟩)
  · rintro ⟨fieldTokens, noRest⟩
    refine ⟨⟨?_, fun char inSubject => ?_⟩, fun empty => (fieldTokens "" empty).1 rfl, noRest⟩
    · rintro rfl
      exact (fieldTokens "" (by decide)).1 rfl
    · by_cases isDot : char = '.'
      · rw [isDot]
        decide
      · obtain ⟨token, member, inToken⟩ := (mem_pieces_iff isDot).mpr inSubject
        exact (fieldTokens token member).2 char inToken

end Subject

namespace Nats

open Subject

/-- A subscription as the broker keeps it. -/
structure Subscription where
  subject : String
  queue : Option String
  deriving DecidableEq

/-- What the broker keeps of a connection. -/
structure Session where
  closed : Bool
  subscriptions : String → Option Subscription

/-- The session with this under a number. -/
def Session.put (sid : String) (entry : Option Subscription) (session : Session) : Session :=
  { session with subscriptions := Function.update session.subscriptions sid entry }

@[simp]
theorem Session.put_self (sid : String) (entry : Option Subscription) (session : Session) :
    (session.put sid entry).subscriptions sid = entry := by
  simp [put]

theorem Session.put_of_ne {sid other : String} (differ : other ≠ sid)
    (entry : Option Subscription) (session : Session) :
    (session.put sid entry).subscriptions other = session.subscriptions other := by
  simp [put, differ]

/-- A number that is taken keeps its subscription, and a subject that is not
accepted is answered with an error. -/
def Session.add (sid : String) (subscription : Subscription) (session : Session) : Session :=
  if (session.subscriptions sid).isNone ∧ IsAccepted subscription.subject then
    session.put sid (some subscription)
  else
    session

/-- The line `SUB` with these arguments.  The broker closes a connection whose
lines it cannot parse, also where a line break cuts one short. -/
def Session.receiveSub (args : String) (session : Session) : Session :=
  if session.closed then
    session
  else if '\n' ∈ args.toList then
    { session with closed := true }
  else
    match fields args with
    | [subject, sid] => session.add sid ⟨subject, none⟩
    | [subject, queue, sid] => session.add sid ⟨subject, some queue⟩
    | _ => { session with closed := true }

/-- The line `UNSUB` with a number. -/
def Session.receiveUnsub (sid : String) (session : Session) : Session :=
  if session.closed then
    session
  else
    session.put sid none

variable {Handler : Type}

/-- A client and the broker's end of its connection. -/
structure Client (Handler : Type) where
  sid : Nat
  subs : String → Option Handler
  session : Session

namespace Client

/-- The client after it has connected. -/
def connected : Client Handler where
  sid := 1
  subs := fun _ => none
  session := ⟨false, fun _ => none⟩

/-- `subscribe`, with the number of the subscription. -/
def subscribe (subject : String) (handler : Handler) (client : Client Handler) :
    String × Client Handler :=
  (client.sid.repr,
    { sid := client.sid + 1
      subs := Function.update client.subs client.sid.repr (some handler)
      session := client.session.receiveSub (subject ++ " " ++ client.sid.repr) })

/-- `unsubscribe`. -/
def unsubscribe (sid : String) (client : Client Handler) : Client Handler :=
  { client with
    subs := Function.update client.subs sid none
    session := client.session.receiveUnsub sid }

/-- The broker has this subscription of an open connection under the number. -/
def IsLive (client : Client Handler) (sid : String) (subscription : Subscription) : Prop :=
  client.session.closed = false ∧ client.session.subscriptions sid = some subscription

theorem isField_repr (number : Nat) : IsField number.repr := by
  apply And.intro Nat.repr_ne_empty
  intro char member
  rw [Nat.toList_repr] at member
  have digit := Nat.isDigit_of_mem_toDigits (by decide) (by decide) member
  apply eq_false_of_ne_true
  intro blank
  have oneOf : char = ' ' ∨ char = '\t' ∨ char = '\r' ∨ char = '\n' := by
    simpa only [Char.isWhitespace, Bool.or_eq_true, decide_eq_true_eq, or_assoc] using blank
  rcases oneOf with rfl | rfl | rfl | rfl <;> exact absurd digit (by decide)

end Client

namespace Session

/-- Every subscription that the broker keeps has a subject that can be
subscribed to. -/
def Accepts (session : Session) : Prop :=
  ∀ sid subscription, session.subscriptions sid = some subscription →
    CanSubscribe subscription.subject

theorem add_cases (session : Session) (sid : String) (subscription : Subscription)
    (isField : IsField subscription.subject) :
    session.add sid subscription = session ∨
      CanSubscribe subscription.subject ∧
        session.add sid subscription = session.put sid (some subscription) := by
  by_cases adds : (session.subscriptions sid).isNone ∧ IsAccepted subscription.subject
  · exact .inr ⟨⟨isField, adds.2⟩, if_pos adds⟩
  · exact .inl (if_neg adds)

/-- What the line of a new subscription can do. -/
theorem receiveSub_cases (session : Session) (subject : String) {sid : String}
    (sidField : IsField sid) :
    session.receiveSub (subject ++ " " ++ sid) = session ∨
      session.receiveSub (subject ++ " " ++ sid) = { session with closed := true } ∨
      ∃ subscription, CanSubscribe subscription.subject ∧
        session.receiveSub (subject ++ " " ++ sid) = session.put sid (some subscription) := by
  have args : fields (subject ++ " " ++ sid) = fields subject ++ [sid] := by
    rw [fields_append, fields_of_isField sidField]
  unfold receiveSub
  split
  · exact .inl rfl
  split
  · exact .inr (.inl rfl)
  rw [args]
  rcases cut : fields subject with _ | ⟨first, _ | ⟨second, rest⟩⟩
  · exact .inr (.inl rfl)
  · have firstField : IsField first := isField_of_mem_fields (cut ▸ List.mem_cons_self)
    rcases session.add_cases sid ⟨first, none⟩ firstField with same | added
    · exact .inl same
    · exact .inr (.inr ⟨_, added⟩)
  · have firstField : IsField first := isField_of_mem_fields (cut ▸ List.mem_cons_self)
    cases rest with
    | nil =>
        rcases session.add_cases sid ⟨first, some second⟩ firstField with same | added
        · exact .inl same
        · exact .inr (.inr ⟨_, added⟩)
    | cons third rest => cases rest <;> exact .inr (.inl rfl)

/-- A subject that can be subscribed to gets a subscription under a number
that is not taken. -/
theorem receiveSub_of_canSubscribe {session : Session} {subject sid : String}
    (can : CanSubscribe subject) (sidField : IsField sid) (opened : session.closed = false)
    (free : session.subscriptions sid = none) :
    session.receiveSub (subject ++ " " ++ sid) =
      session.put sid (some ⟨subject, none⟩) := by
  have args : fields (subject ++ " " ++ sid) = [subject, sid] := by
    rw [fields_append, fields_of_isField can.1, fields_of_isField sidField]
    rfl
  have oneLine : '\n' ∉ (subject ++ " " ++ sid).toList := by
    intro inside
    have oneOf : '\n' ∈ subject.toList ∨ '\n' ∈ sid.toList := by
      simpa using inside
    rcases oneOf with inside | inside
    · exact absurd (can.1.2 '\n' inside) (by decide)
    · exact absurd (sidField.2 '\n' inside) (by decide)
  rw [receiveSub, if_neg (by simp [opened]), if_neg oneLine, args]
  exact if_pos ⟨by simp [free], can.2⟩

theorem Accepts.receiveSub {session : Session} (accepts : session.Accepts) (subject : String)
    {sid : String} (sidField : IsField sid) :
    (session.receiveSub (subject ++ " " ++ sid)).Accepts := by
  rcases session.receiveSub_cases subject sidField with same | closes | ⟨subscription, can, added⟩
  · rw [same]
    exact accepts
  · rw [closes]
    exact accepts
  · rw [added]
    intro other kept found
    by_cases same : other = sid
    · subst same
      rw [put_self] at found
      obtain rfl := Option.some.inj found
      exact can
    · rw [put_of_ne same] at found
      exact accepts other kept found

theorem Accepts.receiveUnsub {session : Session} (accepts : session.Accepts) (sid : String) :
    (session.receiveUnsub sid).Accepts := by
  unfold Session.receiveUnsub
  split
  · exact accepts
  · intro other kept found
    by_cases same : other = sid
    · subst same
      simp at found
    · rw [put_of_ne same] at found
      exact accepts other kept found

end Session

namespace Client

/-- Neither side has used a number that the client has yet to give. -/
def IsFresh (client : Client Handler) : Prop :=
  ∀ number, client.sid ≤ number →
    client.subs number.repr = none ∧ client.session.subscriptions number.repr = none

theorem IsFresh.connected : (connected : Client Handler).IsFresh :=
  fun _ _ => ⟨rfl, rfl⟩

theorem repr_ne_repr {first second : Nat} (differ : first ≠ second) :
    first.repr ≠ second.repr :=
  fun same => differ (Nat.repr_injective same)

theorem IsFresh.subscribe {client : Client Handler} (fresh : client.IsFresh) (subject : String)
    (handler : Handler) : (client.subscribe subject handler).2.IsFresh := by
  intro number later
  have differ : number.repr ≠ client.sid.repr := by
    apply repr_ne_repr
    change client.sid + 1 ≤ number at later
    omega
  have unused := fresh number (Nat.le_of_succ_le later)
  constructor
  · exact (Function.update_of_ne differ _ _).trans unused.1
  · change (client.session.receiveSub _).subscriptions _ = none
    rcases client.session.receiveSub_cases subject (isField_repr client.sid) with
      same | closes | ⟨subscription, -, added⟩
    · rw [same]
      exact unused.2
    · rw [closes]
      exact unused.2
    · rw [added, Session.put_of_ne differ]
      exact unused.2

theorem IsFresh.unsubscribe {client : Client Handler} (fresh : client.IsFresh) (sid : String) :
    (client.unsubscribe sid).IsFresh := by
  intro number later
  have unused := fresh number later
  constructor
  · by_cases same : number.repr = sid
    · simp [Client.unsubscribe, same]
    · simp [Client.unsubscribe, Function.update_of_ne same, unused.1]
  · change (client.session.receiveUnsub sid).subscriptions _ = none
    unfold Session.receiveUnsub
    split
    · exact unused.2
    · by_cases same : number.repr = sid
      · simp [same]
      · rw [Session.put_of_ne same, unused.2]

end Client

end Nats

end Litefunctions
