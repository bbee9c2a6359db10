import Tidemark.Proofs.Cycle.Accounts
import Tidemark.Proofs.Shards.Verdicts
import Tidemark.Rehearsal.Sharding

/-!
# Listings and puts as a sharded stream serves them

A cycle lists and puts through the client of a sharded stream. What the service replies is `Served`, and what
the cycle takes from it is an exchange. On its way a refusal becomes two faults, one after the other:

```
refusal ── ofRefusal ──> fault of the stream ── toFault ──> fault ── isThrottled ──> skipped, or fatal
```

The code of the refusal decides, whatever becomes of its text: the fault is throttling exactly if the code is
one of the throttling codes, `isThrottled_ofRefusal`. A page with a shard that has no range is a fault as a
whole, and never throttling. `Served.fault_cases` sorts the replies accordingly. `Sharding.asked` tells what
the service was asked for, and each listing and each put adds its own request (`list_eq`, `put_eq`).
-/

namespace Tidemark

/-- The fault that an exchange has met. -/
def Exchange.fault? : Exchange → Option Fault
  | .list call => faultOf? call.answer
  | .put call => faultOf? call.answer

/-- The partitions that an exchange lists. -/
def Exchange.partitions : Exchange → List Descriptor
  | .list call => partitionsOf call.answer
  | .put _ => []

/-- The record that an exchange puts. -/
def Exchange.record? : Exchange → Option Record
  | .list _ => none
  | .put call => some call.record

/-- The code of the refusal is one of the throttling codes. -/
def Refusal.IsThrottling (refusal : Refusal) : Prop :=
  ∃ code ∈ Shards.StreamFault.throttlingCodes, refusal.code? = some code

instance (refusal : Refusal) : Decidable refusal.IsThrottling :=
  inferInstanceAs (Decidable (∃ code ∈ Shards.StreamFault.throttlingCodes, refusal.code? = some code))

namespace Shards

/-- Only throttling is throttling to the replay. -/
theorem StreamFault.isThrottled_toFault (fault : StreamFault) :
    fault.toFault.isThrottled = true ↔ ∃ text, fault = .throttled text := by
  cases fault <;> simp [toFault, Fault.isThrottled, Fault.kind]

/-- Neither conversion loses the code of a refusal. -/
theorem StreamFault.isThrottled_ofRefusal (refusal : Refusal) :
    (ofRefusal refusal).toFault.isThrottled = true ↔ refusal.IsThrottling := by
  rw [isThrottled_toFault, ofRefusal, Refusal.IsThrottling]
  split
  · rename_i code hcode
    split
    · rename_i hin
      exact iff_of_true ⟨_, rfl⟩ ⟨code, isThrottling_iff.1 hin, hcode⟩
    · rename_i hout
      refine iff_of_false (by simp) ?_
      rintro ⟨code', hin, hcode'⟩
      obtain rfl := Option.some.inj (hcode.symm.trans hcode')
      exact hout (isThrottling_iff.2 hin)
  · rename_i hcode
    refine iff_of_false (by simp) ?_
    rintro ⟨code, -, hcode'⟩
    exact absurd (hcode.symm.trans hcode') (by simp)

/-- The shards of a page are its partitions, unless one of them has no range. -/
theorem mapM_descriptor_cases (shards : List Shard) :
    (∃ partitions, shards.mapM Shard.descriptor = .ok partitions ∧
        shards.map Shard.lower = partitions.map fun d ↦ some d.lower) ∨
      (∃ shard ∈ shards, shard.lower = none) ∧
        ∃ text, shards.mapM Shard.descriptor = .error (.service text) := by
  induction shards with
  | nil => exact Or.inl ⟨[], rfl, rfl⟩
  | cons shard shards ih =>
    cases hlower : shard.lower with
    | none =>
      have hfault : ∃ text, shard.descriptor = .error (.service text) := by
        rw [Shard.descriptor, hlower]
        exact ⟨_, rfl⟩
      obtain ⟨text, htext⟩ := hfault
      refine Or.inr ⟨⟨shard, List.mem_cons_self, hlower⟩, text, ?_⟩
      rw [List.mapM_cons, htext]
      rfl
    | some lower =>
      rcases ih with ⟨partitions, hok, hlowers⟩ | ⟨⟨bare, hbare, hnone⟩, text, herror⟩
      · refine Or.inl ⟨⟨shard.name, lower⟩ :: partitions, ?_, ?_⟩
        · rw [List.mapM_cons, Shard.descriptor, hlower, hok]
          rfl
        · rw [List.map_cons, List.map_cons, hlower, hlowers]
      · refine Or.inr ⟨⟨bare, List.mem_cons_of_mem _ hbare, hnone⟩, text, ?_⟩
        rw [List.mapM_cons, Shard.descriptor, hlower, herror]
        rfl

end Shards

namespace Rehearsal

open Shards

/-- A listing or a put that the service was asked for, with its reply. -/
inductive Served where
  | list (token : Option String) (reply : Except Refusal ShardPage)
  | put (record : Record) (reply : Except Refusal Ack)

/-- What the client makes of the reply to a listing. -/
def listAnswer (reply : Except Refusal ShardPage) : Except Fault Page :=
  (pageOf reply).mapError StreamFault.toFault

/-- What the client makes of the reply to a put. -/
def putAnswer (reply : Except Refusal Ack) : Outcome :=
  reply.mapError fun refusal ↦ (StreamFault.ofRefusal refusal).toFault

namespace Served

/-- The exchange that a cycle makes of it. -/
def exchange : Served → Exchange
  | list token reply => .list ⟨token, listAnswer reply⟩
  | put record reply => .put ⟨record, putAnswer reply⟩

/-- The request that the service of a stream gets. -/
def request (streamName : String) : Served → ServiceRequest
  | list token _ => .list (.of streamName token)
  | put record _ => .put streamName record

def refusal? : Served → Option Refusal
  | list _ (.error refusal) => some refusal
  | put _ (.error refusal) => some refusal
  | list _ (.ok _) => none
  | put _ (.ok _) => none

/-- The shards that were listed. -/
def shards : Served → List Shard
  | list _ (.ok page) => page.shards
  | list _ (.error _) => []
  | put .. => []

/-- The record that was to be put. -/
def record? : Served → Option Record
  | list .. => none
  | put record _ => some record

/-- A shard was listed that has no range. -/
def IsRangeless (s : Served) : Prop :=
  ∃ shard ∈ s.shards, shard.lower = none

/-- Nothing was refused, and every shard that was listed has a range. -/
def IsSound (s : Served) : Prop :=
  s.refusal? = none ∧ ¬ s.IsRangeless

/-- What a cycle is told of a reply: that all is well, or the fault of the refusal, or a fault for a shard
that has no range. -/
theorem fault_cases (s : Served) :
    (s.IsSound ∧ s.exchange.fault? = none) ∨
      (∃ refusal, s.refusal? = some refusal ∧ ¬ s.IsRangeless ∧
        s.exchange.fault? = some (StreamFault.ofRefusal refusal).toFault) ∨
      (s.refusal? = none ∧ s.IsRangeless ∧
        ∃ fault, s.exchange.fault? = some fault ∧ fault.isThrottled = false) := by
  cases s with
  | put record reply =>
    have hbare : ¬ (put record reply).IsRangeless := by simp [IsRangeless, shards]
    cases reply with
    | ok ack => exact Or.inl ⟨⟨rfl, hbare⟩, rfl⟩
    | error refusal => exact Or.inr (Or.inl ⟨refusal, rfl, hbare, rfl⟩)
  | list token reply =>
    cases reply with
    | error refusal => exact Or.inr (Or.inl ⟨refusal, rfl, by simp [IsRangeless, shards], rfl⟩)
    | ok page =>
      rcases mapM_descriptor_cases page.shards with ⟨partitions, hok, hlowers⟩ | ⟨hbare, text, herror⟩
      · refine Or.inl ⟨⟨rfl, ?_⟩, ?_⟩
        · rintro ⟨shard, hshard, hnone⟩
          have hmem : shard.lower ∈ page.shards.map Shard.lower := List.mem_map_of_mem hshard
          rw [hlowers, hnone] at hmem
          simp at hmem
        · simp only [exchange, Exchange.fault?, listAnswer, pageOf, hok]
          rfl
      · refine Or.inr (Or.inr ⟨rfl, hbare, (StreamFault.service text).toFault, ?_, rfl⟩)
        simp only [exchange, Exchange.fault?, listAnswer, pageOf, herror]
        rfl

theorem IsSound.fault? {s : Served} (hs : s.IsSound) : s.exchange.fault? = none := by
  rcases s.fault_cases with ⟨-, hnone⟩ | ⟨refusal, hrefusal, -⟩ | ⟨-, hbare, -⟩
  · exact hnone
  · exact absurd (hs.1.symm.trans hrefusal) (by simp)
  · exact absurd hbare hs.2

/-- Only a listing lists shards. -/
theorem IsRangeless.record? {s : Served} (hs : s.IsRangeless) : s.record? = none := by
  cases s with
  | list token reply => rfl
  | put record reply =>
    obtain ⟨shard, hshard, -⟩ := hs
    exact absurd hshard List.not_mem_nil

theorem record?_exchange (s : Served) : s.exchange.record? = s.record? := by
  cases s <;> rfl

theorem filterMap_record? (served : List Served) :
    (served.map exchange).filterMap Exchange.record? = served.filterMap record? := by
  rw [List.filterMap_map]
  exact List.filterMap_congr fun s _ ↦ s.record?_exchange

/-- The partitions that a cycle is told of begin where the shards do. -/
theorem IsSound.lowers {s : Served} (hs : s.IsSound) :
    s.shards.map Shard.lower = s.exchange.partitions.map fun d ↦ some d.lower := by
  cases s with
  | put record reply => rfl
  | list token reply =>
    cases reply with
    | error refusal => exact absurd hs.1 (by simp [refusal?])
    | ok page =>
      rcases mapM_descriptor_cases page.shards with ⟨partitions, hok, hlowers⟩ | ⟨hbare, -⟩
      · simp only [exchange, Exchange.partitions, listAnswer, pageOf, hok]
        exact hlowers
      · exact absurd hbare hs.2

/-- The shards that were listed begin where the partitions of the cycle do, in the same order. -/
theorem lowers_of_sound {served : List Served} (hsound : ∀ s ∈ served, s.IsSound) :
    (served.flatMap shards).map Shard.lower =
      ((served.map exchange).flatMap Exchange.partitions).map fun d ↦ some d.lower := by
  rw [List.flatMap_map, List.map_flatMap, List.map_flatMap]
  exact List.flatMap_congr fun s hs ↦ (hsound s hs).lowers

/-- Every listing is asked for by the name of the stream or by a token, and never by both. -/
theorem name_or_token {streamName : String} {s : Served} {page : ListRequest}
    (hpage : s.request streamName = .list page) :
    (page.streamName = some streamName ∧ page.token = none) ∨
      (page.streamName = none ∧ page.token.isSome) := by
  cases s with
  | put record reply => exact absurd hpage (by simp [request])
  | list token reply =>
    obtain rfl := ServiceRequest.list.inj hpage
    cases token with
    | none => exact Or.inl ⟨rfl, rfl⟩
    | some token => exact Or.inr ⟨rfl, rfl⟩

end Served

/-! ### What the service was asked for -/

/-- The request is for a listing or a put, which the client makes itself. -/
def ServiceRequest.isDirect : ServiceRequest → Bool
  | describe _ => false
  | list _ => true
  | put .. => true
  | write .. => false

namespace Sharding

/-- The listings and puts that the service was asked for, in order. -/
def asked (w : Sharding) : List ServiceRequest :=
  (w.state.requests.reverse.map Prod.snd).filter ServiceRequest.isDirect

/-- A request for a listing or a put is asked last. -/
theorem asked_of_requests {w w' : Sharding} {now : Instant} {q : ServiceRequest}
    (hrequests : w'.state.requests = (now, q) :: w.state.requests) (hq : q.isDirect = true) :
    w'.asked = w.asked ++ [q] := by
  rw [asked, hrequests, List.reverse_cons, List.map_append, List.filter_append]
  simp [hq, asked]

/-- The reply of the service to the next listing. -/
def listReply (w : Sharding) : Except Refusal ShardPage :=
  (nextReply (.ok ⟨[], none⟩) w.state.script.listings).1

/-- The reply of the service to the next put. -/
def putReply (w : Sharding) : Except Refusal Ack :=
  (nextReply (.ok ⟨usualShard, some "1"⟩) w.state.script.puts).1

/-- A listing is asked for as it is, and answered from the reply of the service. -/
theorem list_eq (w : Sharding) (token : Option String) :
    (w.list token).1 = listAnswer w.listReply ∧
      (w.list token).2.asked = w.asked ++ [.list (.of w.state.streamName token)] ∧
      (w.list token).2.state.streamName = w.state.streamName := by
  rw [Sharding.list, listAnswer, listReply]
  dsimp only [Sharding.request]
  generalize nextReply _ _ = x
  obtain ⟨reply, listings⟩ := x
  cases pageOf reply <;> exact ⟨rfl, asked_of_requests rfl rfl, rfl⟩

/-- A put is asked for as it is, and answered from the reply of the service. -/
theorem put_eq (w : Sharding) (record : Record) :
    (w.put record).1 = putAnswer w.putReply ∧
      (w.put record).2.asked = w.asked ++ [.put w.state.streamName record] ∧
      (w.put record).2.state.streamName = w.state.streamName := by
  rw [Sharding.put, putAnswer, putReply]
  dsimp only [Sharding.request]
  generalize nextReply _ _ = x
  obtain ⟨reply, puts⟩ := x
  cases reply <;> exact ⟨rfl, asked_of_requests rfl rfl, rfl⟩

end Sharding

end Rehearsal

end Tidemark
