import Litefunctions.PortalProjects
import Litefunctions.RequestedUpdates
import Litefunctions.PortalEndpoints

/-!
# Rows that a path parameter addresses

Seven handlers read a path parameter as the hexadecimal text of an id.  The
portal itself writes ids as pairs of digits, 16 of them for a function or an
endpoint.  A handler that reads other texts too takes them for the id of a row
with another text.
-/

namespace Litefunctions

namespace HexText

/-- ASCII characters are found by their number. -/
theorem forall_ascii (property : Char → Prop) (holds : ∀ code : Fin 128, property (Char.ofNat code))
    {char : Char} (ascii : char.toNat < 128) : property char := by
  have atCode := holds ⟨char.toNat, ascii⟩
  rwa [Char.ofNat_toNat] at atCode

theorem digitValue?_of_large {char : Char} (large : 128 ≤ char.toNat) :
    digitValue? char = none := by
  have above : ∀ {last : Char}, last.toNat < 128 → ¬ char ≤ last := by
    intro last small isBelow
    have below : char.toNat ≤ last.toNat := UInt32.le_iff_toNat_le.mp (Char.le_def.mp isBelow)
    omega
  rw [digitValue?, if_neg (fun range => above (by decide) range.2),
    if_neg (fun range => above (by decide) range.2),
    if_neg (fun range => above (by decide) range.2)]

theorem toLower_of_large {char : Char} (large : 128 ≤ char.toNat) : char.toLower = char := by
  unfold Char.toLower
  rw [dif_neg]
  rintro ⟨-, isBelow⟩
  have below : char.toNat ≤ 'Z'.toNat := UInt32.le_iff_toNat_le.mp isBelow
  have last : 'Z'.toNat = 90 := rfl
  omega

theorem digitValue?_toLower (char : Char) : digitValue? char.toLower = digitValue? char := by
  rcases Nat.lt_or_ge char.toNat 128 with small | large
  · exact forall_ascii (fun char => digitValue? char.toLower = digitValue? char)
      (by decide) small
  · rw [toLower_of_large large]

/-- The digit of a value is the one that was read, in lower case. -/
theorem digit_of_digitValue? {char : Char} {value : Nat} (isValue : digitValue? char = some value) :
    value < 16 ∧ digit value = char.toLower := by
  rcases Nat.lt_or_ge char.toNat 128 with small | large
  · have found : ∀ value ∈ digitValue? char, value < 16 ∧ digit value = char.toLower :=
      forall_ascii (fun char => ∀ value ∈ digitValue? char,
        value < 16 ∧ digit value = char.toLower) (by decide) small
    exact found value isValue
  · rw [digitValue?_of_large large] at isValue
    cases isValue

theorem byte?_eq_some {high low : Char} {byte : UInt8} (isByte : byte? high low = some byte) :
    digit (byte.toNat / 16) = high.toLower ∧ digit (byte.toNat % 16) = low.toLower := by
  simp only [byte?, Option.bind_eq_bind, Option.bind_eq_some_iff, Option.pure_def,
    Option.some.injEq] at isByte
  obtain ⟨first, isFirst, second, isSecond, rfl⟩ := isByte
  obtain ⟨firstSmall, firstDigit⟩ := digit_of_digitValue? isFirst
  obtain ⟨secondSmall, secondDigit⟩ := digit_of_digitValue? isSecond
  rw [UInt8.toNat_ofNat', Nat.mod_eq_of_lt (by omega), ← firstDigit, ← secondDigit]
  constructor
  · congr 1
    omega
  · congr 1
    omega

theorem encodeChars_of_decodeChars {chars : List Char} {bytes : Bytes}
    (decoded : decodeChars chars = some bytes) : chars.map Char.toLower = encodeChars bytes := by
  induction chars using decodeChars.induct generalizing bytes with
  | case1 =>
      obtain rfl := Option.some.inj decoded
      rfl
  | case2 => cases decoded
  | case3 high low rest ih =>
      simp only [decodeChars, Option.bind_eq_bind, Option.bind_eq_some_iff, Option.pure_def,
        Option.some.injEq] at decoded
      obtain ⟨byte, isByte, others, areOthers, rfl⟩ := decoded
      obtain ⟨highDigit, lowDigit⟩ := byte?_eq_some isByte
      rw [List.map_cons, List.map_cons, ih areOthers, encodeChars, highDigit, lowDigit]

theorem decodeChars_map_toLower (chars : List Char) :
    decodeChars (chars.map Char.toLower) = decodeChars chars := by
  induction chars using decodeChars.induct with
  | case1 => rfl
  | case2 => rfl
  | case3 high low rest ih =>
      simp only [List.map_cons, decodeChars, byte?, digitValue?_toLower, ih]

/-- A text decodes to the bytes of which it is, up to case, the encoding. -/
theorem decode_eq_some_iff {text : String} {bytes : Bytes} :
    decode text = some bytes ↔ text.toList.map Char.toLower = (encode bytes).toList := by
  rw [encode, String.toList_ofList]
  constructor
  · exact encodeChars_of_decodeChars
  · intro isEncoding
    have roundTrip := decode_encode bytes
    rw [decode, encode, String.toList_ofList] at roundTrip
    rw [decode, ← decodeChars_map_toLower, isEncoding, roundTrip]

end HexText

namespace Portal

open Program

/-! ### Addressed rows -/

/-- A row that has an id of its own. -/
inductive RowID where
  | function (id : Uuid)
  | endpoint (id : Uuid)
  | access (userID : Bytes)
  deriving DecidableEq

/-- The text that the portal sends for the id of a row. -/
def RowID.emitted : RowID → String
  | function id | endpoint id => id.hex
  | access userID => HexText.encode userID

def Database.functionID (db : Database) (id : Uuid) : List RowID :=
  if (db.function? id).isSome then [.function id] else []

def Database.endpointID (db : Database) (id : Uuid) : List RowID :=
  if (db.endpoint? id).isSome then [.endpoint id] else []

/-- The row of a member of a project, if its role is among some. -/
def Database.accessID (db : Database) (projectID : Uuid) (userID : Bytes) (roles : Role → Bool) :
    List RowID :=
  if (db.role? userID projectID).any roles then [.access userID] else []

/-- The rows that the condition of a statement selects by an id. -/
def Query.addresses (db : Database) : Query → List RowID
  | function (.getFunctionByID id) | function (.updateFunctionPath id _)
  | function (.updateFunctionIsAsync id _) | function (.deleteFunction id) =>
      id.toList.flatMap db.functionID
  | endpoint (.getEndpointByID id) | endpoint (.updateEndpointMethodScope id _ _) =>
      db.endpointID id
  | access (.updateUserProjectRole userID projectID _) =>
      userID.toList.flatMap fun userID => db.accessID projectID userID fun _ => true
  | access (.revokeProjectAccess projectID userID) =>
      userID.toList.flatMap fun userID => db.accessID projectID userID (· ≠ .owner)
  | _ => []

def PortalCall.addresses (db : Database) : PortalCall → List RowID
  | query statement => statement.addresses db
  | _ => []

/-- The text is, up to case, what the portal sends for the row. -/
def RowID.IsNamed (row : RowID) (text : String) : Prop :=
  text.toList.map Char.toLower = row.emitted.toList

/-- A call addresses only rows with this text. -/
def AddressesNamed (text : String) (call : PortalCall) (before : World) : Prop :=
  ∀ row ∈ call.addresses before.db, row.IsNamed text

/-- The requests whose path names a row. -/
inductive IdRoute where
  | getFunction (fnID : String)
  | updateFunction (fnID : String) (body : FunctionHandlers.UpdateBody)
  | deleteFunction (fnID : String)
  | getEndpoint (epID : String)
  | updateEndpoint (epID : String) (body : Option EndpointHandlers.UpdateEndpointRequest)
  | updateProjectAccess (id : String) (body : Option String)
  | revokeProjectAccess (id : String)

namespace IdRoute

def handle (c : Context) : IdRoute → Replies
  | getFunction fnID => FunctionHandlers.getFunction c fnID
  | updateFunction fnID body => FunctionHandlers.updateFunction c fnID body
  | deleteFunction fnID => FunctionHandlers.deleteFunction c fnID
  | getEndpoint epID => EndpointHandlers.getEndpoint epID
  | updateEndpoint epID body => EndpointHandlers.updateEndpoint epID body
  | updateProjectAccess id body => ProjectHandlers.updateProjectAccess c id body
  | revokeProjectAccess id => ProjectHandlers.revokeProjectAccess c id

/-- The parameter in the path. -/
def param : IdRoute → String
  | getFunction id | updateFunction id _ | deleteFunction id | getEndpoint id
  | updateEndpoint id _ | updateProjectAccess id _ | revokeProjectAccess id => id

/-- The parameter has the form that the portal sends: pairs of digits, 16 of
them for a function or an endpoint. -/
def IsExact : IdRoute → Prop
  | getFunction id | updateFunction id _ | deleteFunction id | getEndpoint id
  | updateEndpoint id _ => ∃ bytes, HexText.decode id = some bytes ∧ bytes.length = 16
  | updateProjectAccess id _ | revokeProjectAccess id => ∃ bytes, HexText.decode id = some bytes

/-- The row that a handler takes the parameter for, if it has one; more than 16
bytes are cut for a function or an endpoint, and missing ones are zero. -/
def selected (c : Context) (db : Database) : IdRoute → List RowID
  | getFunction fnID | deleteFunction fnID =>
      (HexText.decode fnID).toList.flatMap fun bytes => db.functionID (.copy bytes)
  | updateFunction fnID _ =>
      (HexText.decode fnID).toList.flatMap fun bytes =>
        if bytes.length = 16 then db.functionID (.copy bytes) else []
  | getEndpoint epID | updateEndpoint epID (some _) =>
      (HexText.decode epID).toList.flatMap fun bytes => db.endpointID (.copy bytes)
  | updateProjectAccess id (some _) =>
      c.project.toList.flatMap fun project => (scanHex id).toList.flatMap fun userID =>
        db.accessID project.projectUUID userID fun _ => true
  | revokeProjectAccess id =>
      c.project.toList.flatMap fun project => (scanHex id).toList.flatMap fun userID =>
        db.accessID project.projectUUID userID (· ≠ .owner)
  | _ => []

end IdRoute

/-! ### Texts of ids -/

theorem isNamed_access_iff {userID : Bytes} {text : String} :
    (RowID.access userID).IsNamed text ↔ HexText.decode text = some userID :=
  HexText.decode_eq_some_iff.symm

/-- The id of 16 bytes is the one that was read unless it was cut or filled. -/
theorem copy_val_eq_iff {bytes : Bytes} : (Uuid.copy bytes).val = bytes ↔ bytes.length = 16 := by
  constructor
  · intro same
    rw [← same]
    exact (Uuid.copy bytes).property
  · intro long
    change (bytes ++ List.replicate 16 0).take 16 = bytes
    rw [List.take_append_of_le_length (by omega), List.take_of_length_le (by omega)]

section Uuids

variable {text : String} {bytes : Bytes} (decoded : HexText.decode text = some bytes)

include decoded

theorem decode_hex_iff :
    text.toList.map Char.toLower = (Uuid.copy bytes).hex.toList ↔ bytes.length = 16 := by
  rw [Uuid.hex, ← HexText.decode_eq_some_iff, decoded, Option.some.injEq, eq_comm, copy_val_eq_iff]

theorem isNamed_function_iff :
    (RowID.function (.copy bytes)).IsNamed text ↔ bytes.length = 16 :=
  decode_hex_iff decoded

theorem isNamed_endpoint_iff :
    (RowID.endpoint (.copy bytes)).IsNamed text ↔ bytes.length = 16 :=
  decode_hex_iff decoded

theorem exists_decode_iff :
    (∃ read, HexText.decode text = some read ∧ read.length = 16) ↔ bytes.length = 16 := by
  rw [decoded]
  constructor
  · rintro ⟨read, isRead, long⟩
    rwa [Option.some.inj isRead]
  · intro long
    exact ⟨bytes, rfl, long⟩

end Uuids

theorem isSpace_of_digitValue? {char : Char} {value : Nat}
    (isValue : HexText.digitValue? char = some value) : isSpace char = false := by
  rcases Nat.lt_or_ge char.toNat 128 with small | large
  · have found : ∀ value ∈ HexText.digitValue? char, isSpace char = false :=
      HexText.forall_ascii (fun char => ∀ value ∈ HexText.digitValue? char,
        isSpace char = false) (by decide) small
    exact found value isValue
  · rw [HexText.digitValue?_of_large large] at isValue
    cases isValue

theorem scanHexPairs_of_decodeChars {chars : List Char} {bytes : Bytes}
    (decoded : HexText.decodeChars chars = some bytes) : scanHexPairs chars = some bytes := by
  induction chars using HexText.decodeChars.induct generalizing bytes with
  | case1 => exact decoded
  | case2 => cases decoded
  | case3 high low rest ih =>
      simp only [HexText.decodeChars, Option.bind_eq_bind, Option.bind_eq_some_iff,
        Option.pure_def, Option.some.injEq] at decoded
      obtain ⟨byte, isByte, others, areOthers, rfl⟩ := decoded
      have isPair := isByte
      simp only [HexText.byte?, Option.bind_eq_bind, Option.bind_eq_some_iff] at isPair
      obtain ⟨first, isFirst, -⟩ := isPair
      rw [scanHexPairs, isFirst]
      simp only [isByte, ih areOthers, Option.map_some]

theorem skipSpace_of_decodeChars {chars : List Char} {bytes : Bytes}
    (decoded : HexText.decodeChars chars = some bytes) : skipSpace chars = some chars := by
  rcases chars with _ | ⟨high, _ | ⟨low, rest⟩⟩
  · rfl
  · cases decoded
  · simp only [HexText.decodeChars, HexText.byte?, Option.bind_eq_bind,
      Option.bind_eq_some_iff] at decoded
    obtain ⟨-, ⟨value, isValue, -⟩, -⟩ := decoded
    have notSpace := isSpace_of_digitValue? isValue
    unfold skipSpace
    split
    · next empty => cases empty
    · next isBreak =>
        obtain ⟨rfl, -⟩ := List.cons.inj isBreak
        cases notSpace
    · next isCons =>
        obtain ⟨rfl, rfl⟩ := List.cons.inj isCons
        exact if_neg (ne_true_of_eq_false notSpace)

/-- Of a text of pairs of digits `fmt.Sscanf` reads all. -/
theorem eq_of_scanHex {text : String} {bytes read : Bytes}
    (decoded : HexText.decode text = some bytes) (scanned : scanHex text = some read) :
    read = bytes := by
  rw [scanHex, skipSpace_of_decodeChars decoded, Option.bind_some,
    scanHexPairs_of_decodeChars decoded] at scanned
  cases bytes with
  | nil => cases scanned
  | cons byte bytes => exact (Option.some.inj scanned).symm

/-! ### Handlers -/

/-- The only row that the call can address. -/
def Targets (target : RowID) (call : PortalCall) : Prop :=
  ∀ db, ∀ row ∈ call.addresses db, row = target

section Handlers

variable {Result : Type} {text : String} {world : World}

theorem ensures_of_targets (target : RowID) {program : PortalProgram Result}
    (targets : program.Makes (Targets target)) (named : target.IsNamed text) :
    Ensures (AddressesNamed text) (fun _ _ => True) program world := by
  have calls : Ensures (fun call _ => Targets target call) (fun _ _ => True) program world :=
    (targets.along []).ensures_calls
  apply calls.imp
  · intro call before onlyTarget row member
    rwa [onlyTarget before.db row member]
  · exact fun _ _ => id

theorem mem_functionID {db : Database} {id : Uuid} {row : RowID} :
    row ∈ db.functionID id ↔ row = .function id ∧ (db.function? id).isSome = true := by
  unfold Database.functionID
  split
  · next found => simp [found]
  · next missing => simp [missing]

theorem mem_endpointID {db : Database} {id : Uuid} {row : RowID} :
    row ∈ db.endpointID id ↔ row = .endpoint id ∧ (db.endpoint? id).isSome = true := by
  unfold Database.endpointID
  split
  · next found => simp [found]
  · next missing => simp [missing]

theorem function_targets (id : Uuid) {statement : FunctionQuery}
    (addressed : ∀ db, Query.addresses db (.function statement) = db.functionID id) :
    Targets (.function id) (.query (.function statement)) := by
  intro db row member
  rw [PortalCall.addresses, addressed] at member
  exact (mem_functionID.mp member).1

/-- A handler that looks up a function by its parameter first, and stops where
it finds none. -/
theorem lookup_addressesNamed_iff {bytes : Bytes} (decoded : HexText.decode text = some bytes)
    {next : Except DbError FunctionRow → PortalProgram Result}
    (targets : ∀ found, (next found).Makes (Targets (.function (.copy bytes))))
    (stops : ∀ err, ∃ result, next (.error err) = done result) :
    Ensures (AddressesNamed text) (fun _ _ => True)
        (call (.query (.function (.getFunctionByID (some (.copy bytes))))) next) world ↔
      (world.db.functionID (.copy bytes) ≠ [] → bytes.length = 16) := by
  have addressed : ∀ db, Query.addresses db
      (.function (.getFunctionByID (some (.copy bytes)))) = db.functionID (.copy bytes) :=
    fun db => List.flatMap_singleton _ _
  constructor
  · intro ensures nonempty
    obtain ⟨row, member⟩ := List.exists_mem_of_ne_nil _ nonempty
    have named := ensures.1 row (by rwa [PortalCall.addresses, addressed])
    rw [(mem_functionID.mp member).1, isNamed_function_iff decoded] at named
    exact named
  · intro isExact
    by_cases isEmpty : world.db.functionID (.copy bytes) = []
    · have missing : world.db.function? (.copy bytes) = none := by
        by_contra found
        have member := mem_functionID.mpr ⟨rfl, Option.isSome_iff_ne_none.mpr found⟩
        rw [isEmpty] at member
        cases member
      apply ensures_reading rfl
      · intro row member
        rw [PortalCall.addresses, addressed, isEmpty] at member
        cases member
      · intro after _
        obtain ⟨result, isDone⟩ := stops .failed
        rw [isDone]
        trivial
      · intro moment after _
        simp only [Query.execute, FunctionQuery.execute, Option.bind_some, missing, oneRow]
        obtain ⟨result, isDone⟩ := stops .noRows
        rw [isDone]
        trivial
    · apply ensures_of_targets (.function (.copy bytes))
      · exact ⟨function_targets _ addressed, targets⟩
      · exact (isNamed_function_iff decoded).mpr (isExact isEmpty)

theorem repo_targets (target : RowID) (project : String) (call : RepoCall) :
    Targets target (.repo project call) := by
  intro db row member
  cases member

theorem getFunction_addressesNamed_iff (c : Context) (fnID : String) :
    Ensures (AddressesNamed fnID) (fun _ _ => True) (FunctionHandlers.getFunction c fnID) world ↔
      ((IdRoute.getFunction fnID).selected c world.db ≠ [] →
        (IdRoute.getFunction fnID).IsExact) := by
  unfold FunctionHandlers.getFunction
  cases decoded : HexText.decode fnID with
  | none => simp [IdRoute.selected, decoded]
  | some bytes =>
      have isExact : (IdRoute.getFunction fnID).IsExact ↔ bytes.length = 16 :=
        exists_decode_iff decoded
      rw [isExact]
      simp only [IdRoute.selected, decoded, Option.toList_some, List.flatMap_singleton]
      apply lookup_addressesNamed_iff decoded
      · intro found
        cases found with
        | error err => trivial
        | ok f =>
            apply mustGetProject_makes
            intro project _
            apply And.intro (repo_targets _ _ _)
            intro data
            rcases data with (_ | _) | _ <;> trivial
      · intro err
        exact ⟨_, rfl⟩

theorem updateFunction_addressesNamed_iff (c : Context) (fnID : String)
    (body : FunctionHandlers.UpdateBody) :
    Ensures (AddressesNamed fnID) (fun _ _ => True)
        (FunctionHandlers.updateFunction c fnID body) world ↔
      ((IdRoute.updateFunction fnID body).selected c world.db ≠ [] →
        (IdRoute.updateFunction fnID body).IsExact) := by
  have null {statement : FunctionQuery} (target : RowID)
      (none : ∀ db, Query.addresses db (.function statement) = []) :
      Targets target (.query (.function statement)) := by
    intro db row member
    rw [PortalCall.addresses, none] at member
    cases member
  unfold FunctionHandlers.updateFunction
  cases decoded : HexText.decode fnID with
  | none => simp [IdRoute.selected, decoded]
  | some bytes =>
      have isExact : (IdRoute.updateFunction fnID body).IsExact ↔ bytes.length = 16 :=
        exists_decode_iff decoded
      rw [isExact]
      simp only [IdRoute.selected, decoded, Option.toList_some, List.flatMap_singleton]
      split
      · next short => simp [short]
      · next long =>
          rw [if_pos (not_not.mp long)]
          apply lookup_addressesNamed_iff decoded
          · intro found
            cases found with
            | error err => trivial
            | ok f =>
                apply mustGetProject_makes
                intro project _
                rcases body with (_ | content) | (_ | req)
                · trivial
                · apply (FunctionHandlers.saveFile_makes (repo_targets _ _) _ _).bind
                  intro saved
                  cases saved <;> trivial
                · trivial
                · exact FunctionHandlers.updateFromJson_makes (repo_targets _ _)
                    (fun _ => null _ fun _ => rfl) (fun _ => null _ fun _ => rfl) _ _
          · intro err
            exact ⟨_, rfl⟩

theorem restoreFunction_targets (target : RowID) (f : FunctionRow) (reason : String) :
    (FunctionHandlers.restoreFunction f reason).Makes (Targets target) := by
  refine ⟨fun db row member => ?_, fun _ => trivial⟩
  cases member

theorem deleteFunction_addressesNamed_iff (c : Context) (fnID : String) :
    Ensures (AddressesNamed fnID) (fun _ _ => True) (FunctionHandlers.deleteFunction c fnID)
        world ↔
      ((IdRoute.deleteFunction fnID).selected c world.db ≠ [] →
        (IdRoute.deleteFunction fnID).IsExact) := by
  unfold FunctionHandlers.deleteFunction
  cases decoded : HexText.decode fnID with
  | none => simp [IdRoute.selected, decoded]
  | some bytes =>
      have isExact : (IdRoute.deleteFunction fnID).IsExact ↔ bytes.length = 16 :=
        exists_decode_iff decoded
      rw [isExact]
      simp only [IdRoute.selected, decoded, Option.toList_some, List.flatMap_singleton]
      apply lookup_addressesNamed_iff decoded
      · intro found
        cases found with
        | error err => trivial
        | ok f =>
            refine ⟨function_targets _ fun db => List.flatMap_singleton _ _, fun deleted => ?_⟩
            cases deleted with
            | error err => trivial
            | ok _ =>
                apply mustGetProject_makes
                intro project _
                apply And.intro (repo_targets _ _ _)
                intro removed
                cases removed with
                | false => exact restoreFunction_targets _ _ _
                | true =>
                    apply And.intro (repo_targets _ _ _)
                    intro committed
                    cases committed with
                    | error err => exact restoreFunction_targets _ _ _
                    | ok _ =>
                        apply And.intro (repo_targets _ _ _)
                        intro pushed
                        cases pushed with
                        | false => exact restoreFunction_targets _ _ _
                        | true => trivial
      · intro err
        exact ⟨_, rfl⟩

/-- A handler with one call that addresses rows. -/
theorem single_addressesNamed_iff {request : PortalCall}
    {next : request.Response → PortalProgram Result}
    (stops : ∀ response, ∃ result, next response = done result) :
    Ensures (AddressesNamed text) (fun _ _ => True) (call request next) world ↔
      ∀ row ∈ request.addresses world.db, row.IsNamed text := by
  constructor
  · intro ensures
    exact ensures.1
  · intro named
    apply And.intro named
    intro circumstance
    obtain ⟨result, isDone⟩ := stops (request.execute circumstance world).1
    rw [isDone]
    trivial

theorem endpoint_named_iff {bytes : Bytes} (decoded : HexText.decode text = some bytes)
    (db : Database) :
    (∀ row ∈ db.endpointID (.copy bytes), row.IsNamed text) ↔
      (db.endpointID (.copy bytes) ≠ [] → bytes.length = 16) := by
  constructor
  · intro named nonempty
    obtain ⟨row, member⟩ := List.exists_mem_of_ne_nil _ nonempty
    have isNamed := named row member
    rwa [(mem_endpointID.mp member).1, isNamed_endpoint_iff decoded] at isNamed
  · intro isExact row member
    rw [(mem_endpointID.mp member).1, isNamed_endpoint_iff decoded]
    exact isExact (List.ne_nil_of_mem member)

theorem getEndpoint_addressesNamed_iff (c : Context) (epID : String) :
    Ensures (AddressesNamed epID) (fun _ _ => True) (EndpointHandlers.getEndpoint epID) world ↔
      ((IdRoute.getEndpoint epID).selected c world.db ≠ [] →
        (IdRoute.getEndpoint epID).IsExact) := by
  unfold EndpointHandlers.getEndpoint
  cases decoded : HexText.decode epID with
  | none => simp [IdRoute.selected, decoded]
  | some bytes =>
      have isExact : (IdRoute.getEndpoint epID).IsExact ↔ bytes.length = 16 :=
        exists_decode_iff decoded
      rw [isExact]
      simp only [IdRoute.selected, decoded, Option.toList_some, List.flatMap_singleton]
      rw [← endpoint_named_iff decoded]
      apply single_addressesNamed_iff
      intro found
      cases found <;> exact ⟨_, rfl⟩

theorem updateEndpoint_addressesNamed_iff (c : Context) (epID : String)
    (body : Option EndpointHandlers.UpdateEndpointRequest) :
    Ensures (AddressesNamed epID) (fun _ _ => True) (EndpointHandlers.updateEndpoint epID body)
        world ↔
      ((IdRoute.updateEndpoint epID body).selected c world.db ≠ [] →
        (IdRoute.updateEndpoint epID body).IsExact) := by
  unfold EndpointHandlers.updateEndpoint
  cases decoded : HexText.decode epID with
  | none => cases body <;> simp [IdRoute.selected, decoded]
  | some bytes =>
      cases body with
      | none => simp [IdRoute.selected]
      | some req =>
          have isExact : (IdRoute.updateEndpoint epID (some req)).IsExact ↔ bytes.length = 16 :=
            exists_decode_iff decoded
          rw [isExact]
          simp only [IdRoute.selected, decoded, Option.toList_some, List.flatMap_singleton]
          rw [← endpoint_named_iff decoded]
          apply single_addressesNamed_iff
          intro updated
          cases updated <;> exact ⟨_, rfl⟩

theorem mem_accessID {db : Database} {projectID : Uuid} {userID : Bytes} {roles : Role → Bool}
    {row : RowID} : row ∈ db.accessID projectID userID roles ↔
      row = .access userID ∧ (db.role? userID projectID).any roles = true := by
  unfold Database.accessID
  split
  · next found => simp [found]
  · next missing => simp [missing]

theorem access_named_iff (db : Database) (projectID : Uuid) (roles : Role → Bool) :
    (∀ row ∈ (scanHex text).toList.flatMap fun userID => db.accessID projectID userID roles,
        row.IsNamed text) ↔
      (((scanHex text).toList.flatMap fun userID => db.accessID projectID userID roles) ≠ [] →
        ∃ bytes, HexText.decode text = some bytes) := by
  constructor
  · intro named nonempty
    obtain ⟨row, member⟩ := List.exists_mem_of_ne_nil _ nonempty
    have isNamed := named row member
    obtain ⟨userID, -, selects⟩ := List.mem_flatMap.mp member
    rw [(mem_accessID.mp selects).1, isNamed_access_iff] at isNamed
    exact ⟨userID, isNamed⟩
  · intro isExact row member
    obtain ⟨bytes, decoded⟩ := isExact (List.ne_nil_of_mem member)
    obtain ⟨userID, scanned, selects⟩ := List.mem_flatMap.mp member
    obtain rfl := eq_of_scanHex decoded (Option.mem_toList.mp scanned)
    rwa [(mem_accessID.mp selects).1, isNamed_access_iff]

theorem updateProjectAccess_addressesNamed_iff (c : Context) (id : String)
    (body : Option String) :
    Ensures (AddressesNamed id) (fun _ _ => True) (ProjectHandlers.updateProjectAccess c id body)
        world ↔
      ((IdRoute.updateProjectAccess id body).selected c world.db ≠ [] →
        (IdRoute.updateProjectAccess id body).IsExact) := by
  unfold ProjectHandlers.updateProjectAccess Context.mustGetProject
  cases isProject : c.project with
  | none => cases body <;> simp [IdRoute.selected, isProject]
  | some project =>
      cases body with
      | none => simp [IdRoute.selected]
      | some role =>
          simp only [IdRoute.selected, isProject, Option.toList_some, List.flatMap_singleton]
          refine Iff.trans ?_ (access_named_iff world.db project.projectUUID fun _ => true)
          apply single_addressesNamed_iff
          intro updated
          cases updated <;> exact ⟨_, rfl⟩

theorem revokeProjectAccess_addressesNamed_iff (c : Context) (id : String) :
    Ensures (AddressesNamed id) (fun _ _ => True) (ProjectHandlers.revokeProjectAccess c id)
        world ↔
      ((IdRoute.revokeProjectAccess id).selected c world.db ≠ [] →
        (IdRoute.revokeProjectAccess id).IsExact) := by
  unfold ProjectHandlers.revokeProjectAccess Context.mustGetProject
  cases isProject : c.project with
  | none => simp [IdRoute.selected, isProject]
  | some project =>
      simp only [IdRoute.selected, isProject, Option.toList_some, List.flatMap_singleton]
      refine Iff.trans ?_ (access_named_iff world.db project.projectUUID (· ≠ .owner))
      apply single_addressesNamed_iff
      intro revoked
      cases revoked <;> exact ⟨_, rfl⟩

end Handlers

/-- A handler addresses a row only by the text that the portal sends for it
exactly when the parameter has the form of such a text, or what is read from it
selects no row. -/
theorem IdRoute.addressesNamed_iff (c : Context) (request : IdRoute) (world : World) :
    Ensures (AddressesNamed request.param) (fun _ _ => True) (request.handle c) world ↔
      (request.selected c world.db ≠ [] → request.IsExact) := by
  cases request with
  | getFunction fnID => exact getFunction_addressesNamed_iff c fnID
  | updateFunction fnID body => exact updateFunction_addressesNamed_iff c fnID body
  | deleteFunction fnID => exact deleteFunction_addressesNamed_iff c fnID
  | getEndpoint epID => exact getEndpoint_addressesNamed_iff c epID
  | updateEndpoint epID body => exact updateEndpoint_addressesNamed_iff c epID body
  | updateProjectAccess id body => exact updateProjectAccess_addressesNamed_iff c id body
  | revokeProjectAccess id => exact revokeProjectAccess_addressesNamed_iff c id

/-- The first byte of an id is enough to delete a function whose other bytes are
zero. -/
theorem shortID_deletes :
    ¬ ∀ (c : Context) (request : IdRoute) (world : World),
      Ensures (AddressesNamed request.param) (fun _ _ => True) (request.handle c) world := by
  intro always
  have named : (RowID.function (.copy [2])).IsNamed "02" :=
    (always FunctionHandlers.shopContext (.deleteFunction "02") FunctionHandlers.totalWorld).1 _
      List.mem_cons_self
  exact absurd (congrArg List.length named) (by decide)

end Portal

end Litefunctions
