import Mathlib.Data.List.DropRight
import Mathlib.Data.List.Forall2
import Mathlib.Logic.Function.Iterate
import Slideshow.EventBus

/-!
# What a bus keeps and what receivers get

A bus keeps the last hundred events in a ring, from which two views are taken (`recent_events`,
`job_history`), and sends each event (`broadcast`) through a channel, which has a size of its own.
Of the channel it is enough to know that every receiver gets what is sent from its subscription on,
in order, and that only the oldest events of a receiver are dropped, of which it is told how many.
Any such channel may stand behind the ring, and the one that the bus has itself is such a channel.

* `Channel` are the calls of a channel, `Backlog` is what a receiver has still to get, and
  `Channel.Orderly` says how calls change it.
* `EventBus.own` is the channel of a bus itself, and `EventBus.Owes` what its receivers have still
  to get.
* `Received.StandsFor` says which events something stands for that a receiver was given, and `Owed`
  that this and the backlog make up the rest.
* `Traffic` is a bus on a channel with all that was broadcast and what its receivers were given, and
  `Traffic.Call` what is done with it.

Headlines:
* `orderly_own`: the channel of a bus delivers in order; `take_eq_receive`: all that waits is what
  is received one by one.
* `broadcast_kept`: the ring is the last hundred events, newest first.
* `Balanced.after`: what a receiver was given and its backlog are together what was broadcast,
  before and after each call.
* **`bus_faithful`**: the views and all receivers agree on what was broadcast, whatever is called in
  whatever order.
-/

namespace Slideshow

variable {σ : Type}

/-! ## Channels -/

/-- Something that sends events to receivers, which have the numbers of their subscriptions. -/
structure Channel (σ : Type) where
  fresh : σ
  send : σ → Event → σ
  subscribe : σ → σ × Nat
  receive : σ → Nat → σ × Option Received

/-- What a receiver has still to get: how many events it missed without being told, and the ones
that wait, oldest first. -/
structure Backlog where
  missed : Nat
  waiting : List Event

namespace Backlog

/-- What is received next: first that something was missed. -/
def next? (b : Backlog) : Option Received :=
  if b.missed = 0 then b.waiting.head?.map .event else some (.lagged b.missed)

/-- What is left when that is received. -/
def rest (b : Backlog) : Backlog := if b.missed = 0 then ⟨0, b.waiting.tail⟩ else ⟨0, b.waiting⟩

/-- All that is received from it. -/
def all (b : Backlog) : List Received :=
  (if b.missed = 0 then [] else [.lagged b.missed]) ++ b.waiting.map .event

/-- One event more, for which some of the oldest may have been dropped. -/
def Pushed (e : Event) (old new : Backlog) : Prop :=
  ∃ dropped kept, old.waiting ++ [e] = dropped ++ kept ∧ new = ⟨old.missed + dropped.length, kept⟩

theorem all_eq (b : Backlog) : b.all = b.next?.elim [] (· :: b.rest.all) := by
  obtain ⟨missed, waiting⟩ := b
  by_cases hmissed : missed = 0
  · cases waiting <;> simp [all, next?, rest, hmissed]
  · simp [all, next?, rest, hmissed]

/-- Everything has been received some time. -/
theorem exhausted (b : Backlog) : ∃ k, (rest^[k] b).next? = none := by
  have htold : ∀ waiting, ∃ k, (rest^[k] ⟨0, waiting⟩).next? = none := by
    intro waiting
    induction waiting with
    | nil => exact ⟨0, rfl⟩
    | cons e es ih =>
      obtain ⟨k, hk⟩ := ih
      exact ⟨k + 1, hk⟩
  obtain ⟨k, hk⟩ := htold b.waiting
  obtain ⟨missed, waiting⟩ := b
  cases missed with
  | zero => exact ⟨k, hk⟩
  | succ missed => exact ⟨k + 1, hk⟩

end Backlog

/-- A channel that delivers in order, drops only the oldest events of a receiver and tells it how
many; `Has` is what the receivers have still to get. -/
structure Channel.Orderly (c : Channel σ) (Has : σ → List Backlog → Prop) : Prop where
  fresh : Has c.fresh []
  send : ∀ {s bs}, Has s bs → ∀ e, ∃ bs', List.Forall₂ (Backlog.Pushed e) bs bs' ∧
    Has (c.send s e) bs'
  subscribe : ∀ {s bs}, Has s bs → (c.subscribe s).2 = bs.length ∧
    Has (c.subscribe s).1 (bs ++ [⟨0, []⟩])
  receive : ∀ {s bs}, Has s bs → ∀ r,
    (c.receive s r).2 = bs[r]?.bind Backlog.next? ∧ Has (c.receive s r).1 (bs.modify r Backlog.rest)

/-! ## The channel of a bus -/

namespace EventBus

/-- The channel that a bus has itself. -/
def own (capacity : Nat) : Channel EventBus := ⟨ofCapacity capacity, broadcast, subscribe, receive⟩

/-- The backlog of a receiver whose next event has number `next`. -/
def backlog (b : EventBus) (next : Nat) : Backlog :=
  ⟨b.sent - next - b.capacity, (b.channel.take (min (b.sent - next) b.capacity)).reverse⟩

/-- The channel has what was sent last, and no receiver is ahead of it. -/
structure Sound (b : EventBus) : Prop where
  room : 0 < b.capacity
  full : b.channel.length = min b.sent b.capacity
  behind : ∀ next ∈ b.receivers, next ≤ b.sent

/-- What the receivers of a bus have still to get. -/
def Owes (b : EventBus) (backlogs : List Backlog) : Prop :=
  b.Sound ∧ backlogs = b.receivers.map b.backlog

theorem roundedCapacity_pos (n : Nat) : 0 < roundedCapacity n := by
  unfold roundedCapacity
  split
  · exact Nat.one_pos
  · exact Nat.pow_pos Nat.two_pos

theorem sound_ofCapacity (n : Nat) : (ofCapacity n).Sound :=
  ⟨roundedCapacity_pos n, rfl, List.forall_mem_nil _⟩

variable {b : EventBus}

theorem Sound.broadcast (h : b.Sound) (e : Event) : (b.broadcast e).Sound where
  room := h.room
  full := by
    have hfull := h.full
    simp only [EventBus.broadcast, List.length_take, List.length_cons]
    omega
  behind next hnext := Nat.le_succ_of_le (h.behind next hnext)

/-- An event is sent to each receiver; one that is too far behind loses its oldest. -/
theorem Sound.pushed (h : b.Sound) (e : Event) {next : Nat} (hnext : next ≤ b.sent) :
    (b.backlog next).Pushed e ((b.broadcast e).backlog next) := by
  have hroom := h.room
  have hsent : b.sent + 1 - next = b.sent - next + 1 := by omega
  have hnew : (b.broadcast e).backlog next = ⟨b.sent + 1 - next - b.capacity,
      (((e :: b.channel).take b.capacity).take (min (b.sent + 1 - next) b.capacity)).reverse⟩ := rfl
  rw [hnew, List.take_take, hsent]
  by_cases hbehind : b.sent - next < b.capacity
  · refine ⟨[], _, rfl, ?_⟩
    have hmin : min (min (b.sent - next + 1) b.capacity) b.capacity = b.sent - next + 1 := by omega
    have hold : min (b.sent - next) b.capacity = b.sent - next := by omega
    have hnone : b.sent - next + 1 - b.capacity = b.sent - next - b.capacity + 0 := by omega
    rw [hmin, List.take_succ_cons, List.reverse_cons, backlog, hold, List.length_nil, hnone]
    rfl
  · -- the backlog is as long as the channel, and the oldest event goes
    obtain ⟨k, hk⟩ := Nat.exists_eq_add_one.mpr hroom
    have hmin : min (min (b.sent - next + 1) b.capacity) b.capacity = k + 1 := by omega
    have hold : min (b.sent - next) b.capacity = k + 1 := by omega
    have hfull := h.full
    have hlength : k < b.channel.length := by omega
    refine ⟨[b.channel[k]], (b.channel.take k).reverse ++ [e], ?_, ?_⟩
    · rw [backlog, hold, List.take_succ_eq_append_getElem hlength, List.reverse_append,
        List.append_assoc]
      rfl
    · rw [hmin, List.take_succ_cons, List.reverse_cons, List.length_singleton]
      congr 1
      show _ = b.sent - next - b.capacity + 1
      omega

/-- What receiving does to the receiver and to what it has still to get. -/
theorem Sound.received (h : b.Sound) {r next : Nat} (hr : b.receivers[r]? = some next) :
    (b.receive r).2 = (b.backlog next).next? ∧
      ∃ next' ≤ b.sent, (b.receive r).1 = { b with receivers := b.receivers.set r next' } ∧
        b.backlog next' = (b.backlog next).rest := by
  have hnext := h.behind next (List.mem_of_getElem? hr)
  have hroom := h.room
  have hfull := h.full
  unfold receive
  rw [hr]
  dsimp only
  split
  · next hnone =>
    have hbacklog : b.backlog next = ⟨0, []⟩ := by
      rw [backlog, hnone, Nat.zero_sub, Nat.zero_min, List.take_zero, List.reverse_nil]
    refine ⟨by rw [hbacklog]; rfl, next, hnext, ?_, by rw [hbacklog]; rfl⟩
    obtain ⟨hlt, rfl⟩ := List.getElem?_eq_some_iff.mp hr
    rw [List.set_getElem_self]
  · next hsome =>
    split
    · next hbehind =>
      have hmissed : (b.backlog next).missed ≠ 0 := Nat.sub_ne_zero_of_lt hbehind
      refine ⟨(if_neg hmissed).symm, b.sent - b.capacity, Nat.sub_le _ _, rfl, ?_⟩
      rw [Backlog.rest, if_neg hmissed]
      simp only [backlog]
      have hfit : b.capacity ≤ b.sent := by omega
      rw [Nat.sub_sub_self hfit, Nat.sub_self, Nat.min_self, Nat.min_eq_right hbehind.le]
    · next hbehind =>
      have hmissed : (b.backlog next).missed = 0 := Nat.sub_eq_zero_of_le (not_lt.mp hbehind)
      obtain ⟨k, hk⟩ := Nat.exists_eq_add_one.mpr (Nat.pos_of_ne_zero hsome)
      have hlength : k < b.channel.length := by omega
      have hold : min (b.sent - next) b.capacity = k + 1 := by omega
      have hwaiting : (b.backlog next).waiting = b.channel[k] :: (b.channel.take k).reverse := by
        simp only [backlog]
        rw [hold, List.take_succ_eq_append_getElem hlength, List.reverse_append]
        rfl
      refine ⟨?_, next + 1, by omega, rfl, ?_⟩
      · rw [Backlog.next?, if_pos hmissed, hwaiting, hk, Nat.add_sub_cancel,
          List.getElem?_eq_getElem hlength]
        rfl
      · rw [Backlog.rest, if_pos hmissed, hwaiting]
        have hsent : b.sent - (next + 1) = k := by omega
        rw [backlog, hsent]
        congr 1
        · omega
        · rw [List.tail_cons, Nat.min_eq_left (by omega)]

/-- The channel of a bus delivers in order. -/
theorem orderly_own (capacity : Nat) : (own capacity).Orderly Owes where
  fresh := ⟨sound_ofCapacity capacity, rfl⟩
  send := by
    rintro b _ ⟨h, rfl⟩ e
    refine ⟨b.receivers.map (b.broadcast e).backlog, ?_, h.broadcast e, rfl⟩
    rw [List.forall₂_map_left_iff, List.forall₂_map_right_iff, List.forall₂_same]
    exact fun next hnext => h.pushed e (h.behind next hnext)
  subscribe := by
    rintro b _ ⟨h, rfl⟩
    have hnothing : b.backlog b.sent = ⟨0, []⟩ := by
      rw [backlog, Nat.sub_self, Nat.zero_sub, Nat.zero_min, List.take_zero, List.reverse_nil]
    refine ⟨(List.length_map _).symm,
      ⟨h.room, h.full, List.forall_mem_append.mpr ⟨h.behind, List.forall_mem_singleton.mpr le_rfl⟩⟩,
        ?_⟩
    have hafter : ((own capacity).subscribe b).1.receivers.map b.backlog =
        b.receivers.map b.backlog ++ [b.backlog b.sent] :=
      List.map_append
    rw [← hnothing, ← hafter]
    rfl
  receive := by
    rintro b _ ⟨h, rfl⟩ r
    show (b.receive r).2 = _ ∧ Owes (b.receive r).1 _
    rw [List.getElem?_map]
    cases hr : b.receivers[r]? with
    | none =>
      have hreceive : b.receive r = (b, none) := by unfold receive; rw [hr]
      have hbeyond : (b.receivers.map b.backlog).length ≤ r := by
        rw [List.length_map]
        exact List.getElem?_eq_none_iff.mp hr
      rw [hreceive, List.modify_eq_self hbeyond]
      exact ⟨rfl, h, rfl⟩
    | some next =>
      obtain ⟨hgot, next', hnext', hleft, hrest⟩ := h.received hr
      refine ⟨hgot, ?_⟩
      rw [hleft, List.modify_eq_set_getElem?, List.getElem?_map, hr]
      refine ⟨⟨h.room, h.full, fun n hn => ?_⟩, ?_⟩
      · rcases List.mem_or_eq_of_mem_set hn with hold | rfl
        · exact h.behind n hold
        · exact hnext'
      · show _ = (b.receivers.set r next').map b.backlog
        rw [List.map_set, hrest]
        rfl

/-- Everything that waits for a receiver is what it receives one by one. -/
theorem Sound.take_eq_receive (h : b.Sound) (r : Nat) :
    (b.take r).2 = (b.receive r).2.elim [] (· :: ((b.receive r).1.take r).2) := by
  cases hr : b.receivers[r]? with
  | none => simp [take, receive, hr]
  | some next =>
    obtain ⟨hgot, next', -, hleft, hrest⟩ := h.received hr
    have hnow : (b.take r).2 = (b.backlog next).all := by
      unfold take
      rw [hr]
      rfl
    have hthen : ((b.receive r).1.take r).2 = (b.backlog next').all := by
      obtain ⟨hlt, -⟩ := List.getElem?_eq_some_iff.mp hr
      have hset : (b.receivers.set r next')[r]? = some next' := List.getElem?_set_self hlt
      rw [hleft]
      unfold take
      dsimp only
      rw [hset]
      rfl
    rw [hnow, hthen, hgot, hrest, Backlog.all_eq]

/-- The ring is the last hundred events, newest first. -/
theorem broadcast_kept {sent : List Event} (h : b.kept = (sent.rtake maxRecentEvents).reverse)
    (e : Event) :
    (b.broadcast e).kept = ((sent ++ [e]).rtake maxRecentEvents).reverse := by
  rw [List.rtake_eq_reverse_take_reverse, List.reverse_reverse] at h ⊢
  have hkept : (b.broadcast e).kept = (e :: b.kept).take maxRecentEvents := rfl
  rw [hkept, h, List.reverse_append, List.reverse_singleton, List.singleton_append]
  show e :: _ = e :: _
  rw [List.take_take]
  rfl

theorem receive_kept (b : EventBus) (r : Nat) : (b.receive r).1.kept = b.kept := by
  unfold receive
  split
  · rfl
  · dsimp only
    split_ifs <;> rfl

end EventBus

/-! ## What the receivers were given -/

/-- What something that a receiver was given stands for: an event, or as many as it says it
missed. -/
inductive Received.StandsFor : Received → List Event → Prop where
  | event (e : Event) : StandsFor (.event e) [e]
  | lagged (events : List Event) : StandsFor (.lagged events.length) events

/-- What was given to a receiver stands for these events, in this order. -/
def Accounts (got : List Received) (events : List Event) : Prop :=
  ∃ parts : List (List Event), events = parts.flatten ∧ List.Forall₂ Received.StandsFor got parts

/-- A receiver: how many events were broadcast before it subscribed, and what it was given. -/
structure Log where
  start : Nat
  got : List Received

/-- What was broadcast since a receiver subscribed is what it was given and its backlog together. -/
def Owed (sent : List Event) (log : Log) (b : Backlog) : Prop :=
  log.start ≤ sent.length ∧ ∃ told missed, sent.drop log.start = told ++ missed ++ b.waiting ∧
    Accounts log.got told ∧ missed.length = b.missed

theorem Accounts.concat {got : List Received} {events more : List Event} {x : Received}
    (h : Accounts got events) (hx : x.StandsFor more) :
    Accounts (got ++ [x]) (events ++ more) := by
  obtain ⟨parts, rfl, hparts⟩ := h
  refine ⟨parts ++ [more], ?_, List.rel_append hparts (.cons hx .nil)⟩
  rw [List.flatten_append, List.flatten_singleton]

namespace Owed

variable {sent : List Event} {log : Log} {b : Backlog}

theorem subscribed (sent : List Event) : Owed sent ⟨sent.length, []⟩ ⟨0, []⟩ :=
  ⟨le_rfl, [], [], by rw [List.drop_length]; rfl, ⟨[], rfl, .nil⟩, rfl⟩

theorem broadcast (h : Owed sent log b) {e : Event} {new : Backlog} (hpushed : b.Pushed e new) :
    Owed (sent ++ [e]) log new := by
  obtain ⟨hstart, told, missed, hsent, htold, hmissed⟩ := h
  obtain ⟨dropped, kept, hwaiting, rfl⟩ := hpushed
  refine ⟨by rw [List.length_append]; omega, told, missed ++ dropped, ?_, htold, by
    rw [List.length_append, hmissed]⟩
  rw [List.drop_append_of_le_length hstart, hsent, List.append_assoc, hwaiting]
  simp only [List.append_assoc]

theorem received (h : Owed sent log b) :
    Owed sent { log with got := log.got ++ b.next?.toList } b.rest := by
  obtain ⟨hstart, told, missed, hsent, htold, hmissed⟩ := h
  refine ⟨hstart, ?_⟩
  unfold Backlog.next? Backlog.rest
  by_cases hnone : b.missed = 0
  · have hnil : missed = [] := List.eq_nil_of_length_eq_zero (hmissed.trans hnone)
    subst hnil
    rw [if_pos hnone, if_pos hnone]
    cases hwaiting : b.waiting with
    | nil =>
      rw [hwaiting] at hsent
      exact ⟨told, [], hsent, by simpa using htold, rfl⟩
    | cons e es =>
      rw [hwaiting] at hsent
      exact ⟨told ++ [e], [], by simpa using hsent, htold.concat (.event e), rfl⟩
  · rw [if_neg hnone, if_neg hnone, ← hmissed]
    exact ⟨told ++ missed, [], by simpa using hsent, htold.concat (.lagged missed), rfl⟩

theorem settled (h : Owed sent log b) (hnext : b.next? = none) :
    Accounts log.got (sent.drop log.start) := by
  obtain ⟨-, told, missed, hsent, htold, hmissed⟩ := h
  unfold Backlog.next? at hnext
  split at hnext
  · next hnone =>
    have hnil : missed = [] := List.eq_nil_of_length_eq_zero (hmissed.trans hnone)
    have hwaiting : b.waiting = [] := by simpa using hnext
    rwa [hsent, hnil, hwaiting, List.append_nil, List.append_nil]
  · exact nomatch hnext

end Owed

/-! ## A bus on any channel -/

theorem forall₂_modify {α β : Type} {R : α → β → Prop} {f : α → α} {g : β → β} {as : List α}
    {bs : List β} (h : List.Forall₂ R as bs) :
    ∀ r, (∀ a b, bs[r]? = some b → R a b → R (f a) (g b)) →
        List.Forall₂ R (as.modify r f) (bs.modify r g) := by
  induction h with
  | nil =>
    intro r _
    rw [List.modify_nil, List.modify_nil]
    exact .nil
  | cons hab hrest ih =>
    intro r hr
    cases r with
    | zero =>
      rw [List.modify_zero_cons, List.modify_zero_cons]
      exact .cons (hr _ _ rfl hab) hrest
    | succ r =>
      rw [List.modify_succ_cons, List.modify_succ_cons]
      exact .cons hab (ih r fun a b hb => hr a b hb)

/-- A bus on a channel, all that was broadcast, and its receivers. -/
structure Traffic (σ : Type) where
  bus : EventBus
  channel : σ
  sent : List Event
  logs : List Log

namespace Traffic

/-- What is called on a bus. That recent events or those of a job are asked for changes nothing. -/
inductive Call where
  | broadcast (e : Event)
  | subscribe
  | receive (receiver : Nat)

/-- A new bus on a channel. -/
def start (c : Channel σ) (capacity : Nat) : Traffic σ := ⟨.ofCapacity capacity, c.fresh, [], []⟩

def after (c : Channel σ) (t : Traffic σ) : Call → Traffic σ
  | .broadcast e =>
    { t with bus := t.bus.broadcast e, channel := c.send t.channel e, sent := t.sent ++ [e] }
  | .subscribe =>
    { t with
      bus := t.bus.subscribe.1
      channel := (c.subscribe t.channel).1
      logs := t.logs ++ [⟨t.sent.length, []⟩] }
  | .receive r =>
    { t with
      bus := (t.bus.receive r).1
      channel := (c.receive t.channel r).1
      logs := t.logs.modify r fun log =>
        { log with got := log.got ++ (c.receive t.channel r).2.toList } }

/-- A bus on a channel after all calls. -/
def run (c : Channel σ) (capacity : Nat) (calls : List Call) : Traffic σ :=
  calls.foldl (after c) (start c capacity)

/-- The ring has the last events, and each receiver was given all but its backlog. -/
structure Balanced (Has : σ → List Backlog → Prop) (t : Traffic σ) : Prop where
  ring : t.bus.kept = (t.sent.rtake maxRecentEvents).reverse
  owed : ∃ backlogs, Has t.channel backlogs ∧ List.Forall₂ (Owed t.sent) t.logs backlogs

/-- What the views and the receivers of a bus tell about what was broadcast. -/
structure Faithful (c : Channel σ) (t : Traffic σ) : Prop where
  recent : ∀ n, t.bus.recent n = (t.sent.rtake (min n (min maxRecentEvents t.sent.length))).reverse
  count : ∀ n, (t.bus.recent n).length = min n (min maxRecentEvents t.sent.length)
  history : ∀ id, t.bus.history id = (t.sent.rtake maxRecentEvents).filter (·.job == id)
  number : (c.subscribe t.channel).2 = t.logs.length
  delivered : ∀ log ∈ t.logs, ∃ told, told <+: t.sent.drop log.start ∧ Accounts log.got told
  complete : ∀ r log, t.logs[r]? = some log → (c.receive t.channel r).2 = none →
    Accounts log.got (t.sent.drop log.start)
  ending : ∀ r, ∃ k, (c.receive ((fun s => (c.receive s r).1)^[k] t.channel) r).2 = none

variable {c : Channel σ} {Has : σ → List Backlog → Prop} {t : Traffic σ}

theorem balanced_start (hc : c.Orderly Has) (capacity : Nat) : Balanced Has (start c capacity) :=
  ⟨rfl, [], hc.fresh, .nil⟩

theorem owed_sent {sent : List Event} {e : Event} {backlogs backlogs' : List Backlog}
    (hpushed : List.Forall₂ (Backlog.Pushed e) backlogs backlogs') :
    ∀ {logs}, List.Forall₂ (Owed sent) logs backlogs →
        List.Forall₂ (Owed (sent ++ [e])) logs backlogs' := by
  induction hpushed with
  | nil =>
    rintro _ ⟨⟩
    exact .nil
  | cons hp _ ih =>
    rintro _ (_ | ⟨h, hrest⟩)
    exact .cons (h.broadcast hp) (ih hrest)

/-- What one call leaves: each receiver is given what it lacked before, and lacks what is new. -/
theorem Balanced.after (hc : c.Orderly Has) (h : Balanced Has t) (call : Call) :
    Balanced Has (t.after c call) := by
  obtain ⟨hring, backlogs, hhas, howed⟩ := h
  cases call with
  | broadcast e =>
    obtain ⟨backlogs', hpushed, hhas'⟩ := hc.send hhas e
    exact ⟨EventBus.broadcast_kept hring e, backlogs', hhas', owed_sent hpushed howed⟩
  | subscribe =>
    obtain ⟨-, hhas'⟩ := hc.subscribe hhas
    exact ⟨hring, _, hhas', List.rel_append howed (.cons (Owed.subscribed t.sent) .nil)⟩
  | receive r =>
    obtain ⟨hgot, hhas'⟩ := hc.receive hhas r
    refine ⟨(EventBus.receive_kept t.bus r).trans hring, _, hhas',
      forall₂_modify howed r fun log b hb h => ?_⟩
    rw [hgot, hb]
    exact h.received

theorem balanced_run (hc : c.Orderly Has) (capacity : Nat) (calls : List Call) :
    Balanced Has (run c capacity calls) :=
  List.foldlRecOn calls _ (balanced_start hc capacity) fun _ h call _ => h.after hc call

/-- A receiver that goes on gets everything in the end. -/
theorem Balanced.ending (hc : c.Orderly Has) (h : Balanced Has t) (r : Nat) :
    ∃ k, (c.receive ((fun s => (c.receive s r).1)^[k] t.channel) r).2 = none := by
  obtain ⟨-, backlogs, hhas, -⟩ := h
  have hdrained : ∀ k,
      Has ((fun s => (c.receive s r).1)^[k] t.channel) (backlogs.modify r Backlog.rest^[k]) := by
    intro k
    induction k with
    | zero => simpa using hhas
    | succ k ih =>
      rw [Function.iterate_succ_apply', Function.iterate_succ', ← List.modify_modify_eq]
      exact (hc.receive ih r).2
  cases hr : backlogs[r]? with
  | none =>
    refine ⟨0, ?_⟩
    rw [Function.iterate_zero_apply, (hc.receive hhas r).1, hr]
    rfl
  | some b =>
    obtain ⟨k, hk⟩ := b.exhausted
    refine ⟨k, ?_⟩
    rw [(hc.receive (hdrained k) r).1, List.getElem?_modify_eq, hr]
    exact hk

/-- Each receiver has a backlog, from which it is given what it receives next. -/
theorem Balanced.receiver (h : Balanced Has t) {r : Nat} {log : Log} (hr : t.logs[r]? = some log) :
    ∃ b : Backlog, (∀ c : Channel σ, c.Orderly Has → (c.receive t.channel r).2 = b.next?) ∧
        Owed t.sent log b := by
  obtain ⟨-, backlogs, hhas, howed⟩ := h
  obtain ⟨hlength, hall⟩ := List.forall₂_iff_get.mp howed
  obtain ⟨hlog, rfl⟩ := List.getElem?_eq_some_iff.mp hr
  have hb : backlogs[r]? = some backlogs[r] := List.getElem?_eq_getElem (hlength ▸ hlog)
  refine ⟨backlogs[r], fun c hc => ?_, hall r hlog (hlength ▸ hlog)⟩
  rw [(hc.receive hhas r).1, hb]
  rfl

theorem Balanced.faithful (hc : c.Orderly Has) (h : Balanced Has t) : t.Faithful c where
  recent n := by
    have hkept : t.bus.recent n = (t.sent.reverse.take maxRecentEvents).take n := by
      rw [EventBus.recent, h.ring, List.rtake_eq_reverse_take_reverse, List.reverse_reverse]
    rw [hkept, List.take_take, List.rtake_eq_reverse_take_reverse,
      List.reverse_reverse, ← Nat.min_assoc, ← List.length_reverse, List.take_eq_take_min]
  count n := by
    rw [EventBus.recent, h.ring, List.rtake_eq_reverse_take_reverse, List.reverse_reverse,
      List.length_take, List.length_take, List.length_reverse]
  history id := by rw [EventBus.history, h.ring, List.reverse_reverse]
  number := by
    obtain ⟨backlogs, hhas, howed⟩ := h.owed
    rw [(hc.subscribe hhas).1, howed.length_eq]
  delivered log hlog := by
    obtain ⟨r, hr⟩ := List.mem_iff_getElem?.mp hlog
    obtain ⟨b, -, -, told, missed, hsent, htold, -⟩ := h.receiver hr
    exact ⟨told, ⟨missed ++ b.waiting, by rw [hsent, List.append_assoc]⟩, htold⟩
  complete r log hr hnone := by
    obtain ⟨b, hnext, howed⟩ := h.receiver hr
    exact howed.settled (hnext c hc ▸ hnone)
  ending := h.ending hc

/-- On its own channel the bus is one with the channel. -/
theorem channel_own (capacity : Nat) (calls : List Call) :
    (run (EventBus.own capacity) capacity calls).channel =
        (run (EventBus.own capacity) capacity calls).bus := by
  have hstart : (start (EventBus.own capacity) capacity).channel =
    (start (EventBus.own capacity) capacity).bus := rfl
  refine List.foldlRecOn (motive := fun t : Traffic EventBus => t.channel = t.bus) calls _ hstart
    fun t h call _ => ?_
  obtain ⟨bus, channel, sent, logs⟩ := t
  obtain rfl : channel = bus := h
  cases call <;> rfl

/-- Whatever is called on a bus, in whatever order: the recent events are the last of those that
were broadcast, and at most a hundred, newest first; the history of a job are those among the last
hundred that belong to it, oldest first; and what a receiver was given, with what it was told it
missed, is what was broadcast since it subscribed, up to what it has still to get, and all of it
once there is nothing more to get, which is so some time when it goes on. It is so on every channel
that delivers in order, as the one of the bus. -/
theorem bus_faithful (capacity : Nat) :
    ((EventBus.own capacity).Orderly EventBus.Owes ∧
      ∀ calls, (run (EventBus.own capacity) capacity calls).channel =
        (run (EventBus.own capacity) capacity calls).bus) ∧
    ∀ {σ : Type} {c : Channel σ} {Has : σ → List Backlog → Prop}, c.Orderly Has →
      ∀ calls, (run c capacity calls).Faithful c := by
  refine ⟨⟨EventBus.orderly_own capacity, channel_own capacity⟩, fun {σ c Has} hc calls => ?_⟩
  have hbalanced : Balanced Has (run c capacity calls) := balanced_run hc capacity calls
  exact hbalanced.faithful hc

/-- A receiver that is three events behind on a channel for two is told that it missed one, and gets
the others. -/
theorem bus_faithful_behind :
    let e := Event.queued ⟨0⟩
    let t :=
      run (EventBus.own 2) 2
        [.subscribe, .broadcast (e 1), .broadcast (e 2), .broadcast (e 3), .receive 0, .receive 0,
          .receive 0]
    t.logs = [⟨0, [.lagged 1, .event (e 2), .event (e 3)]⟩] ∧ t.bus.recent 2 = [e 3, e 2] ∧
        t.Faithful (EventBus.own 2) :=
  ⟨rfl, rfl, (bus_faithful 2).2 (EventBus.orderly_own 2) _⟩

end Traffic

end Slideshow
