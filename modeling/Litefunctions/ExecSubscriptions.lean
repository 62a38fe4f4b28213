import Litefunctions.ExecutionSubjects
import Litefunctions.ModuleCaches
import Litefunctions.SubscriptionClients
import Mathlib.Data.List.Sort

/-!
# Execution subscriptions of the Lua and TypeScript runtimes

Both runtimes subscribe to the executions of every function in their directory.
They keep the subscriptions in a table of consumers, and a message on the hook
of the language makes them read the directory again.  The runtimes differ in
the names that they find: TypeScript takes names of letters, digits, `_` and
`-`, and Lua takes every file that ends in `.lua`.
-/

namespace Litefunctions

namespace ScriptRuntime

open SeparatedText Subject Nats

/-! ### Listing functions -/

/-- An entry of the directory of functions. -/
structure DirEntry where
  name : String
  isFile : Bool

/-- The text before a suffix. -/
def stem? (suffix : String) (text : List Char) : Option (List Char) :=
  if suffix.toList.isSuffixOf text then
    some (text.take (text.length - suffix.length))
  else
    none

/-- `runtime_functions_path`. -/
def runtimeFunctionsPath : String :=
  "/app/pkg/functions"

/-- The pattern `([^/]+)%.lua$` on a line of `find`. -/
def luaNameOfLine (line : String) : Option String :=
  (stem? ".lua" line.toList).bind fun front =>
    let name := front.rtakeWhile (· ≠ '/')
    if name = [] then none else some (String.ofList name)

/-- `list_functions` of the Lua runtime reads the lines that `find` prints, so
it cuts a path that contains a line break. -/
def luaListFunctions (directory : List DirEntry) : List String :=
  let found := directory.filter fun entry =>
    entry.isFile && (stem? ".lua" entry.name.toList).isSome
  let lines := found.flatMap fun entry => pieces '\n' s!"{runtimeFunctionsPath}/{entry.name}"
  (lines.filterMap luaNameOfLine).insertionSort (· ≤ ·)

/-- `listFunctions` of the TypeScript runtime. -/
def tsListFunctions (directory : List DirEntry) : List String :=
  let found := directory.filter fun entry => TsRuntime.isFunctionFile entry.name
  let names := found.filterMap fun entry => (stem? ".ts" entry.name.toList).map String.ofList
  names.dedup.insertionSort (· ≤ ·)

/-- The runtimes that subscribe without a stream. -/
inductive Runtime where
  | lua
  | ts

namespace Runtime

/-- The language of a runtime. -/
def language : Runtime → Language
  | lua => .lua
  | ts => .ts

/-- The names that a runtime finds in its directory. -/
def listFunctions : Runtime → List DirEntry → List String
  | lua => luaListFunctions
  | ts => tsListFunctions

/-- The subject of the executions of a function. -/
def execSubject (runtime : Runtime) (project name : String) : String :=
  s!"{project}.{name}.exec.{runtime.language.tag}.*"

/-- The subject of the hook. -/
def hookSubject (runtime : Runtime) (project : String) : String :=
  s!"{project}.hook.{runtime.language.tag}"

theorem consumer_subject (runtime : Runtime) (project name : String)
    (code : Runtimes.UserCode) :
    (runtime.language.consumer project name code).subject = runtime.execSubject project name := by
  cases runtime
  · simp only [Runtime.language, Language.consumer, Runtimes.luaConsumeFunction, execSubject,
      Language.tag, String.append_assoc]
    rfl
  · rfl

end Runtime

/-! ### Reconciling -/

/-- What a runtime does with a message: it invokes a function, or refreshes
its code. -/
inductive Handler where
  | invoke (name : String)
  | refresh
  deriving DecidableEq

/-- The client and the table of consumers, which holds the number of the
subscription of a function. -/
structure State where
  nats : Client Handler
  consumers : String → Option String

variable (runtime : Runtime) (project : String)

/-- `consume_function` and `consumeFunction`. -/
def consumeFunction (name : String) (state : State) : State :=
  let subscribed := state.nats.subscribe (runtime.execSubject project name) (.invoke name)
  { nats := subscribed.2
    consumers := Function.update state.consumers name (some subscribed.1) }

/-- One turn of the loop over the consumers. -/
def stopStale (listed : List String) (state : State) (name : String) : State :=
  match state.consumers name with
  | none => state
  | some sid =>
      if name ∈ listed then
        state
      else
        { nats := state.nats.unsubscribe sid
          consumers := Function.update state.consumers name none }

/-- One turn of the loop over the desired names. -/
def startMissing (state : State) (name : String) : State :=
  if (state.consumers name).isSome then state else consumeFunction runtime project name state

/-- `reconcile_consumers` and `reconcileConsumers`, for the orders in which the
loops come upon the names. -/
def reconcileConsumers (known desired : List String) (state : State) : State :=
  desired.foldl (startMissing runtime project) (known.foldl (stopStale desired) state)

/-- `watch_lua_hook` and `watchTSHook`. -/
def watchHook (state : State) : State :=
  { state with nats := (state.nats.subscribe (runtime.hookSubject project) .refresh).2 }

/-- A runtime that has connected. -/
def connected : State where
  nats := .connected
  consumers := fun _ => none

/-- The loops go over the keys of their tables, in any order. -/
def Reconciles (directory : List DirEntry) (before after : State) : Prop :=
  ∃ known desired : List String,
    (∀ name, name ∈ known ↔ (before.consumers name).isSome) ∧
    (∀ name, name ∈ desired ↔ name ∈ runtime.listFunctions directory) ∧
    after = reconcileConsumers runtime project known desired before

/-- A runtime reconciles, watches its hook and reconciles again for each
message of the hook.  The list has the directory of every reconcile and the
state after it. -/
inductive Runs : List (List DirEntry × State) → State → Prop where
  | initial {directory : List DirEntry} {after : State}
      (reconciled : Reconciles runtime project directory connected after) :
      Runs [(directory, after)] (watchHook runtime project after)
  | refresh {reconciles : List (List DirEntry × State)} {directory : List DirEntry}
      {before after : State} (earlier : Runs reconciles before)
      (reconciled : Reconciles runtime project directory before after) :
      Runs ((directory, after) :: reconciles) after

/-- A live subscription for the executions of a function: its messages are
those of the subject, or they are passed to the function. -/
def IsExec (state : State) (sid name : String) : Prop :=
  ∃ subscription, state.nats.IsLive sid subscription ∧
    (subscription = ⟨runtime.execSubject project name, none⟩ ∨
      state.nats.subs sid = some (.invoke name))

/-- Each of these functions has one live subscription, which invokes it, and
no other function has one. -/
structure SubscribedExactly (names : List String) (state : State) : Prop where
  one : ∀ name ∈ names, ∃ sid,
    state.nats.IsLive sid ⟨runtime.execSubject project name, none⟩ ∧
      state.nats.subs sid = some (.invoke name) ∧
      ∀ other, IsExec runtime project state other name → other = sid
  noOther : ∀ name, name ∉ names → ∀ sid, ¬ IsExec runtime project state sid name

/-! ### Subjects -/

theorem tokens_execSubject (name : String) :
    tokens (runtime.execSubject project name) =
      tokens project ++ tokens name ++ ["exec", runtime.language.runtimeTag, "*"] := by
  have code : Runtimes.UserCode := ⟨fun _ _ => [], .ok⟩
  rw [← runtime.consumer_subject project name code, tokens_consumer_subject]

theorem tokens_hookSubject :
    tokens (runtime.hookSubject project) =
      tokens project ++ ["hook", runtime.language.tag] := by
  have text : runtime.hookSubject project =
      project ++ String.singleton '.' ++ ("hook" ++ String.singleton '.' ++ runtime.language.tag) := by
    simp only [Runtime.hookSubject, String.append_assoc]
    rfl
  rw [text, tokens, pieces_append, pieces_append]
  cases runtime <;> rfl

theorem execSubject_injective {first second : String}
    (same : runtime.execSubject project first = runtime.execSubject project second) :
    first = second := by
  have texts := congrArg String.toList same
  simp only [Runtime.execSubject, String.toList_append, List.append_cancel_right_eq,
    List.append_cancel_left_eq] at texts
  exact String.toList_inj.mp texts

theorem execSubject_ne_hookSubject (name : String) :
    runtime.execSubject project name ≠ runtime.hookSubject project := by
  intro same
  have last := congrArg (fun subject => (tokens subject).getLast?) same
  rw [tokens_execSubject, tokens_hookSubject] at last
  cases runtime <;> simp [Runtime.language, Language.tag] at last

/-- The tokens that can be written in a subject before its last one. -/
def PlainTokens (text : String) : Prop :=
  ∀ token ∈ tokens text, IsField token ∧ token ≠ ">"

theorem canSubscribe_execSubject_iff (name : String) :
    CanSubscribe (runtime.execSubject project name) ↔ PlainTokens project ∧ PlainTokens name := by
  have others : ∀ token ∈ ["exec", runtime.language.runtimeTag, "*"], IsField token := by
    cases runtime <;> decide
  have split : (tokens project ++ tokens name ++ ["exec", runtime.language.runtimeTag, "*"]).dropLast =
      tokens project ++ tokens name ++ ["exec", runtime.language.runtimeTag] := by
    rw [List.dropLast_append_of_ne_nil (by simp)]
    rfl
  have noRest : ">" ∉ ["exec", runtime.language.runtimeTag] := by
    cases runtime <;> decide
  rw [canSubscribe_iff, tokens_execSubject, split]
  simp only [List.mem_append, PlainTokens, not_or]
  constructor
  · rintro ⟨isField, ⟨notProject, notName⟩, -⟩
    refine ⟨fun token member => ⟨isField token (.inl (.inl member)), ?_⟩,
      fun token member => ⟨isField token (.inl (.inr member)), ?_⟩⟩
    · rintro rfl
      exact notProject member
    · rintro rfl
      exact notName member
  · rintro ⟨projectPlain, namePlain⟩
    refine ⟨?_, ⟨fun member => (projectPlain _ member).2 rfl,
      fun member => (namePlain _ member).2 rfl⟩, noRest⟩
    rintro token ((member | member) | member)
    · exact (projectPlain token member).1
    · exact (namePlain token member).1
    · exact others token member

theorem canSubscribe_hookSubject (plain : PlainTokens project) :
    CanSubscribe (runtime.hookSubject project) := by
  have others : ∀ token ∈ ["hook", runtime.language.tag], IsField token := by
    cases runtime <;> decide
  have split : (tokens project ++ ["hook", runtime.language.tag]).dropLast =
      tokens project ++ ["hook"] := by
    rw [List.dropLast_append_of_ne_nil (by simp)]
    rfl
  rw [canSubscribe_iff, tokens_hookSubject, split]
  constructor
  · intro token member
    rcases List.mem_append.mp member with member | member
    · exact (plain token member).1
    · exact others token member
  · intro member
    rcases List.mem_append.mp member with member | member
    · exact (plain _ member).2 rfl
    · exact absurd member (by decide)

end ScriptRuntime

end Litefunctions
