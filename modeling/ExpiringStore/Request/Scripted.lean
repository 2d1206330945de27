import ExpiringStore.Request.Sink

/-!
# A sink with planned failures

Attempts to write and attempts to flush are numbered from zero. A plan says which write fails, which
write takes nothing, which flush fails, and how much a write takes at most.
-/

namespace ExpiringStore.Scripted

/-- Where a sink fails. -/
structure Plan where
  /-- The write that fails. -/
  failWrite : Option Nat
  /-- The flush that fails. -/
  failFlush : Option Nat
  /-- The write that takes nothing. -/
  zeroWrite : Option Nat
  /-- The most bytes that a write takes. -/
  maxWrite : Option Nat
deriving DecidableEq

/-- The attempts made so far. -/
structure Attempts where
  /-- Writes, failed ones included. -/
  writes : Nat
  /-- Flushes, failed ones included. -/
  flushes : Nat
deriving DecidableEq

/-- The sink that fails as planned. -/
def sink (plan : Plan) : Sink Attempts where
  write t bytes :=
    let outcome : Except Fault Nat :=
      if plan.failWrite = some t.writes then .error .brokenPipe
      else if plan.zeroWrite = some t.writes then .ok 0
      else .ok (min bytes.length (plan.maxWrite.getD bytes.length))
    (outcome, { t with writes := t.writes + 1 })
  flush t :=
    let outcome : Except Fault Unit :=
      if plan.failFlush = some t.flushes then .error .connectionReset else .ok ()
    (outcome, { t with flushes := t.flushes + 1 })

end ExpiringStore.Scripted
