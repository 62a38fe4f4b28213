import Litefunctions.ExecutionSubjects
import Litefunctions.RequestHandlers

/-!
# Processes of the runtimes

The pod of a runtime starts some time after its Deployment exists.  It then
subscribes for its function and publishes the outputs for each message.  The
Python runtime reads its messages from a stream of the project, all others
from a subscription, and the Go runtime handles each in a goroutine of its
own.
-/

namespace Litefunctions

namespace Runtimes

open Program Platform

/-- Publish all outputs, whatever fails. -/
def publishEach : List Msg → PlatformProgram Unit
  | [] => return
  | out :: outs => do
      let _ ← publish out
      publishEach outs

/-- Publish outputs until one fails. -/
def publishUntilError : List Msg → PlatformProgram Bool
  | [] => return true
  | out :: outs => do
      if ← publish out then
        publishUntilError outs
      else
        return false

/-- What a runtime does with one message, and whether it goes on. -/
def handleMessage (language : Language) (outs : List Msg) : PlatformProgram Bool := do
  match language with
  | .go =>
      startWorker outs
      return true
  | .rust => publishUntilError outs
  | .python | .ts =>
      let _ ← publishUntilError outs
      return true
  | .lua =>
      publishEach outs
      return true

/-- The loop of a consumer over `next`, the wait for its next message. -/
def consume (language : Language) (consumer : Consumer) (next : PlatformProgram (Option Msg)) :
    (rounds : Nat) → PlatformProgram Unit
  | 0 => return
  | rounds + 1 => do
      match ← next with
      | none => return
      | some msg =>
          if ← handleMessage language (consumer.handle msg) then
            consume language consumer next rounds
          else
            return

/-- The stream of a project, which the Python and TypeScript runtimes add. -/
abbrev addProjectStream (project : String) : PlatformProgram Bool :=
  addStream project [s!"{project}.>"]

/-- A consumer on a subscription of its own, which ends with it. -/
def consumeSubscription (language : Language) (consumer : Consumer) (rounds : Nat) :
    PlatformProgram Unit := do
  match ← subscribe consumer.subject none with
  | none => return
  | some subscriber =>
      consume language consumer (receive subscriber) rounds
      unsubscribe subscriber

/-- The consumer of one function, from the start of the pod on. -/
def startFunction (language : Language) (project name : String) (code : UserCode)
    (rounds : Nat) : PlatformProgram Unit := do
  let consumer := language.consumer project name code
  match language with
  | .python =>
      if ← addProjectStream project then
        match ← pullSubscribe project consumer.subject with
        | none => return
        | some reader =>
            consume language consumer (fetch reader) rounds
      else
        return
  | .ts =>
      if ← addProjectStream project then
        consumeSubscription language consumer rounds
      else
        return
  | .go | .rust | .lua => consumeSubscription language consumer rounds

/-- A runtime waits for its Deployment. -/
def runtime (deployment : NamespacedName) (language : Language) (project name : String)
    (code : UserCode) (rounds : Nat) : PlatformProgram Unit := do
  awaitDeployment deployment
  startFunction language project name code rounds

end Runtimes

end Litefunctions
