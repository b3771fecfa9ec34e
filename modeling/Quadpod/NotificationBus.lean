import Quadpod.Space

namespace Quadpod

/-!
# The notification bus

`notify.rs`: a registry of broadcast channels, one for each topic somebody
reads.  A step of the bus is what an operation does without giving up the lock:
`live` reads under one lock and evicts under another, and dropping a receiver
releases it before it takes the lock.  The receivers of a channel are counted
anew at every eviction, which is why a channel is evicted only when nobody reads
it, and the last receiver to be released is followed by an eviction of its own.
-/

/-! ## Events -/

/-- `Topic`: the graph IRI of a target. -/
structure Topic where
  iri : Text
  deriving DecidableEq

/-- `Topic::from` -/
def Topic.of [IriSyntax] {space : StorageSpace} (target : Target space) :
    Topic where
  iri := graphIri target

/-- `Activity` -/
inductive Activity where
  | create
  | update
  | delete
  | add
  | remove
  deriving DecidableEq

/-- `Event` -/
structure Event where
  topic : Topic
  activity : Activity
  object : Text
  target : Option Text
  state : Option Text
  deriving DecidableEq

/-! ## The bus -/

/-- How far a receiver is: alive, released by its drop, or dropped. -/
inductive ReceiverPhase where
  | live
  | released
  | dropped
  deriving DecidableEq

/-- `Receiver`, the channel it reads and the events sent to it. -/
structure Receiver where
  topic : Topic
  channel : Nat
  phase : ReceiverPhase
  received : List Event
  deriving DecidableEq

/-- A call of `live` between its two locks, or one that has returned. -/
structure LiveCall where
  live : List Topic
  dead : List Topic
  returned : Bool
  deriving DecidableEq

/-- `Bus`, with the channels it opened, their receivers and the calls of `live`. -/
structure Bus where
  channels : Topic → Option Nat
  opened : Nat
  receivers : List Receiver
  calls : List LiveCall

/-- The steps of the operations of the bus. -/
inductive BusStep where
  | subscribe (topic : Topic)
  | release (receiver : Nat)
  | evict (receiver : Nat)
  | liveRead (topics : List Topic)
  | liveWrite (call : Nat)
  | publish (event : Event)
  deriving DecidableEq

namespace Bus

/-- `Bus::new` -/
def empty : Bus where
  channels _ := none
  opened := 0
  receivers := []
  calls := []

/-- `broadcast::Sender::receiver_count` -/
def receiverCount (bus : Bus) (channel : Nat) : Nat :=
  bus.receivers.countP fun receiver =>
    receiver.phase = .live && receiver.channel = channel

/-- Whether a topic has a channel that nobody reads. -/
def idle (bus : Bus) (topic : Topic) : Bool :=
  (bus.channels topic).any fun channel => bus.receiverCount channel = 0

/-- The channel of a topic is removed if nobody reads it. -/
def evict (bus : Bus) (topic : Topic) : Bus :=
  if bus.idle topic then
    { bus with channels := Function.update bus.channels topic none }
  else
    bus

/-- `Bus::subscribe` -/
def subscribe (bus : Bus) (topic : Topic) : Bus :=
  match bus.channels topic with
  | some channel =>
      { bus with receivers := bus.receivers ++ [⟨topic, channel, .live, []⟩] }
  | none =>
      { bus with
        channels := Function.update bus.channels topic (some bus.opened)
        opened := bus.opened + 1
        receivers := bus.receivers ++ [⟨topic, bus.opened, .live, []⟩] }

/-- A receiver goes on to the next phase of its life. -/
def setPhase (bus : Bus) (index : Nat) (phase : ReceiverPhase) : Bus :=
  { bus with
    receivers :=
      bus.receivers.modify index fun receiver =>
        { receiver with phase := phase } }

/-- The first half of `Bus::live`. -/
def liveRead (bus : Bus) (topics : List Topic) : Bus :=
  let dead := topics.filter bus.idle
  let live := topics.filter fun topic =>
    (bus.channels topic).isSome && !bus.idle topic
  { bus with calls := bus.calls ++ [⟨live, dead, dead.isEmpty⟩] }

/-- The second half of `Bus::live`. -/
def liveWrite (bus : Bus) (index : Nat) (call : LiveCall) : Bus :=
  { call.dead.foldl evict bus with
    calls := bus.calls.set index { call with returned := true } }

/-- `Bus::publish` -/
def publish (bus : Bus) (event : Event) : Bus :=
  match bus.channels event.topic with
  | some channel =>
      { bus with
        receivers := bus.receivers.map fun receiver =>
          if receiver.phase = .live ∧ receiver.channel = channel then
            { receiver with received := receiver.received ++ [event] }
          else
            receiver }
  | none => bus

/-- One step, if it can be made. -/
def step (bus : Bus) : BusStep → Option Bus
  | .subscribe topic => some (bus.subscribe topic)
  | .release index =>
      match bus.receivers[index]? with
      | some receiver =>
          if receiver.phase = .live then
            some (bus.setPhase index .released)
          else
            none
      | none => none
  | .evict index =>
      match bus.receivers[index]? with
      | some receiver =>
          if receiver.phase = .released then
            some ((bus.setPhase index .dropped).evict receiver.topic)
          else
            none
      | none => none
  | .liveRead topics => some (bus.liveRead topics)
  | .liveWrite index =>
      match bus.calls[index]? with
      | some call =>
          if call.returned then none else some (bus.liveWrite index call)
      | none => none
  | .publish event => some (bus.publish event)

/-- A run: steps one after the other, each of which can be made. -/
def run (bus : Bus) (steps : List BusStep) : Option Bus :=
  steps.foldlM step bus

/-! ## Counting receivers -/

/-- A topic is idle when it has a channel of which no receiver is alive. -/
theorem idle_iff {bus : Bus} {topic : Topic} :
    bus.idle topic = true ↔
      ∃ channel,
        bus.channels topic = some channel ∧
          ∀ (index : Nat) (receiver : Receiver),
            bus.receivers[index]? = some receiver →
            receiver.phase = .live →
            receiver.channel ≠ channel := by
  unfold idle receiverCount
  cases isChannel : bus.channels topic with
  | none =>
      simp
  | some channel =>
      simp only [Option.any_some, decide_eq_true_eq, List.countP_eq_zero,
        Bool.and_eq_true, not_and, Option.some.injEq, exists_eq_left',
        List.mem_iff_getElem?, forall_exists_index, ne_eq]
      constructor
      · intro none index receiver isReceiver
        exact none receiver index isReceiver
      · intro none receiver index isReceiver
        exact none index receiver isReceiver

/-! ## The invariant -/

/--
Every live receiver reads the channel registered for its topic, and no two topics
share a channel.
-/
structure Attached (bus : Bus) : Prop where
  registered :
    ∀ (index : Nat) (receiver : Receiver),
      bus.receivers[index]? = some receiver →
      receiver.phase = .live →
      bus.channels receiver.topic = some receiver.channel
  opened :
    ∀ topic channel,
      bus.channels topic = some channel → channel < bus.opened
  distinct :
    ∀ first second channel,
      bus.channels first = some channel →
      bus.channels second = some channel →
      first = second

/-- A channel that nobody reads is about to be evicted by a drop. -/
def Reclaimed (bus : Bus) : Prop :=
  ∀ topic,
    bus.idle topic = true →
    ∃ (index : Nat) (receiver : Receiver),
      bus.receivers[index]? = some receiver ∧
        receiver.phase = .released ∧ receiver.topic = topic

theorem attached_empty : empty.Attached where
  registered := by simp [empty]
  opened := by simp [empty]
  distinct := by simp [empty]

theorem reclaimed_empty : empty.Reclaimed := by
  intro topic isIdle
  simp [idle, empty] at isIdle

/-! ### Evicting -/

@[simp] theorem receivers_evict (bus : Bus) (topic : Topic) :
    (bus.evict topic).receivers = bus.receivers := by
  unfold evict
  split
  · rfl
  · rfl

@[simp] theorem opened_evict (bus : Bus) (topic : Topic) :
    (bus.evict topic).opened = bus.opened := by
  unfold evict
  split
  · rfl
  · rfl

/-- An eviction takes the channel of its topic away if nobody reads it. -/
theorem channels_evict (bus : Bus) (topic other : Topic) :
    (bus.evict topic).channels other =
      if other = topic ∧ bus.idle topic = true then none
      else bus.channels other := by
  unfold evict
  by_cases isIdle : bus.idle topic = true
  · rw [if_pos isIdle]
    by_cases same : other = topic
    · simp [same, isIdle]
    · simp [same]
  · rw [if_neg isIdle, if_neg fun both => isIdle both.2]

/-- What is registered after an eviction was registered before it. -/
theorem channels_of_evict
    {bus : Bus} {topic other : Topic} {channel : Nat}
    (isChannel : (bus.evict topic).channels other = some channel) :
    bus.channels other = some channel := by
  rw [channels_evict] at isChannel
  split at isChannel
  · cases isChannel
  · exact isChannel

/-- A topic is idle after an eviction only if it is another one. -/
theorem idle_of_evict
    {bus : Bus} {topic other : Topic}
    (isIdle : (bus.evict topic).idle other = true) :
    other ≠ topic ∧ bus.idle other = true := by
  obtain ⟨channel, isChannel, unread⟩ := idle_iff.mp isIdle
  rw [receivers_evict] at unread
  have wasIdle : bus.idle other = true :=
    idle_iff.mpr ⟨channel, channels_of_evict isChannel, unread⟩
  refine ⟨?_, wasIdle⟩
  rintro rfl
  rw [channels_evict, if_pos ⟨rfl, wasIdle⟩] at isChannel
  cases isChannel

/-- No live receiver loses its channel to an eviction. -/
theorem Attached.evict {bus : Bus} (attached : bus.Attached) (topic : Topic) :
    (bus.evict topic).Attached where
  registered := by
    intro index receiver isReceiver isLive
    rw [receivers_evict] at isReceiver
    have isChannel := attached.registered index receiver isReceiver isLive
    rw [channels_evict, if_neg, isChannel]
    rintro ⟨same, isIdle⟩
    obtain ⟨channel, isOther, unread⟩ := idle_iff.mp isIdle
    rw [← same, isChannel] at isOther
    cases isOther
    exact unread index receiver isReceiver isLive rfl
  opened := by
    intro other channel isChannel
    rw [opened_evict]
    exact attached.opened other channel (channels_of_evict isChannel)
  distinct := by
    intro first second channel isFirst isSecond
    exact attached.distinct first second channel (channels_of_evict isFirst)
      (channels_of_evict isSecond)

theorem Reclaimed.evict {bus : Bus} (reclaimed : bus.Reclaimed)
    (topic : Topic) : (bus.evict topic).Reclaimed := by
  intro other isIdle
  rw [receivers_evict]
  exact reclaimed other (idle_of_evict isIdle).2

/-! ### The phases of a receiver -/

theorem getElem?_setPhase
    (bus : Bus) (index other : Nat) (phase : ReceiverPhase) :
    (bus.setPhase index phase).receivers[other]? =
      if index = other then
        bus.receivers[other]?.map fun receiver =>
          { receiver with phase := phase }
      else
        bus.receivers[other]? := by
  rw [setPhase, List.getElem?_modify]
  split
  · rfl
  · simp

/-- A receiver that is alive after another left its life is one that was. -/
theorem live_of_setPhase
    {bus : Bus} {index other : Nat} {phase : ReceiverPhase}
    {receiver : Receiver}
    (isReceiver :
      (bus.setPhase index phase).receivers[other]? = some receiver)
    (isLive : receiver.phase = .live)
    (leaves : phase ≠ .live) :
    index ≠ other ∧ bus.receivers[other]? = some receiver := by
  rw [getElem?_setPhase] at isReceiver
  split at isReceiver
  · obtain ⟨before, _, rfl⟩ := Option.map_eq_some_iff.mp isReceiver
    exact (leaves isLive).elim
  next different =>
      exact ⟨different, isReceiver⟩

theorem Attached.setPhase
    {bus : Bus} (attached : bus.Attached) (index : Nat)
    {phase : ReceiverPhase} (leaves : phase ≠ .live) :
    (bus.setPhase index phase).Attached where
  registered := by
    intro other receiver isReceiver isLive
    exact attached.registered other receiver
      (live_of_setPhase isReceiver isLive leaves).2 isLive
  opened := attached.opened
  distinct := attached.distinct

/-- The receiver of which a phase is set. -/
theorem getElem?_setPhase_self
    {bus : Bus} {index : Nat} {receiver : Receiver}
    (isReceiver : bus.receivers[index]? = some receiver)
    (phase : ReceiverPhase) :
    (bus.setPhase index phase).receivers[index]? =
      some { receiver with phase := phase } := by
  rw [getElem?_setPhase, if_pos rfl, isReceiver]
  rfl

/-- Releasing a receiver leaves its channel to its own eviction. -/
theorem Reclaimed.release
    {bus : Bus} (attached : bus.Attached) (reclaimed : bus.Reclaimed)
    {index : Nat} {receiver : Receiver}
    (isReceiver : bus.receivers[index]? = some receiver)
    (isLive : receiver.phase = .live) :
    (bus.setPhase index .released).Reclaimed := by
  intro topic isIdle
  obtain ⟨channel, isChannel, unread⟩ := idle_iff.mp isIdle
  by_cases own : receiver.topic = topic
  · exact ⟨index, _, getElem?_setPhase_self isReceiver .released, rfl, own⟩
  · have wasIdle : bus.idle topic = true := by
      refine idle_iff.mpr ⟨channel, isChannel, ?_⟩
      intro other reader isReader readerLive same
      by_cases isIndex : index = other
      · subst isIndex
        rw [isReceiver] at isReader
        cases isReader
        have registered :=
          attached.registered index receiver isReceiver isLive
        rw [same] at registered
        exact own (attached.distinct _ _ channel registered isChannel)
      · refine unread other reader ?_ readerLive same
        rw [getElem?_setPhase, if_neg isIndex]
        exact isReader
    obtain ⟨other, reader, isReader, isReleased, onTopic⟩ :=
      reclaimed topic wasIdle
    refine ⟨other, reader, ?_, isReleased, onTopic⟩
    rw [getElem?_setPhase, if_neg, isReader]
    rintro rfl
    rw [isReceiver] at isReader
    cases isReader
    rw [isLive] at isReleased
    cases isReleased

/-- The eviction after a release takes the channel if it was the last one. -/
theorem Reclaimed.drop
    {bus : Bus} (reclaimed : bus.Reclaimed)
    {index : Nat} {receiver : Receiver}
    (isReceiver : bus.receivers[index]? = some receiver)
    (isReleased : receiver.phase = .released) :
    ((bus.setPhase index .dropped).evict receiver.topic).Reclaimed := by
  intro topic isIdle
  obtain ⟨other, stillIdle⟩ := idle_of_evict isIdle
  obtain ⟨channel, isChannel, unread⟩ := idle_iff.mp stillIdle
  have wasIdle : bus.idle topic = true := by
    refine idle_iff.mpr ⟨channel, isChannel, ?_⟩
    intro readerIndex reader isReader readerLive
    refine unread readerIndex reader ?_ readerLive
    rw [getElem?_setPhase, if_neg, isReader]
    rintro rfl
    rw [isReceiver] at isReader
    cases isReader
    rw [isReleased] at readerLive
    cases readerLive
  obtain ⟨readerIndex, reader, isReader, readerReleased, onTopic⟩ :=
    reclaimed topic wasIdle
  refine ⟨readerIndex, reader, ?_, readerReleased, onTopic⟩
  rw [receivers_evict, getElem?_setPhase, if_neg, isReader]
  rintro rfl
  rw [isReceiver] at isReader
  cases isReader
  exact other onTopic.symm

/-! ### Subscribing and publishing -/

theorem getElem?_append_singleton
    {α : Type} {items : List α} {last item : α} {index : Nat}
    (isItem : (items ++ [last])[index]? = some item) :
    items[index]? = some item ∨ item = last := by
  rw [List.getElem?_append] at isItem
  split at isItem
  · exact Or.inl isItem
  · rw [List.getElem?_singleton] at isItem
    split at isItem
    · exact Or.inr (Option.some.inj isItem).symm
    · cases isItem

/-- The receiver of a subscription reads the channel of its topic. -/
theorem Attached.subscribe
    {bus : Bus} (attached : bus.Attached) (topic : Topic) :
    (bus.subscribe topic).Attached := by
  unfold Bus.subscribe
  cases isChannel : bus.channels topic with
  | some channel =>
      refine ⟨?_, attached.opened, attached.distinct⟩
      intro index receiver isReceiver isLive
      rcases getElem?_append_singleton isReceiver with old | rfl
      · exact attached.registered index receiver old isLive
      · exact isChannel
  | none =>
      have others (other : Topic) (different : other ≠ topic) :
          Function.update bus.channels topic (some bus.opened) other =
            bus.channels other :=
        Function.update_of_ne different _ _
      have own :
          Function.update bus.channels topic (some bus.opened) topic =
            some bus.opened :=
        Function.update_self _ _ _
      refine ⟨?_, ?_, ?_⟩
      · intro index receiver isReceiver isLive
        rcases getElem?_append_singleton isReceiver with old | rfl
        · have registered := attached.registered index receiver old isLive
          refine Eq.trans (others receiver.topic ?_) registered
          intro same
          rw [same, isChannel] at registered
          cases registered
        · exact own
      · intro other channel isOther
        dsimp only at isOther ⊢
        by_cases same : other = topic
        · subst same
          rw [own] at isOther
          cases isOther
          exact Nat.lt_succ_self _
        · rw [others other same] at isOther
          exact Nat.lt_succ_of_lt (attached.opened other channel isOther)
      · intro first second channel isFirst isSecond
        dsimp only at isFirst isSecond
        by_cases firstOwn : first = topic
        · by_cases secondOwn : second = topic
          · rw [firstOwn, secondOwn]
          · subst firstOwn
            rw [own] at isFirst
            cases isFirst
            rw [others second secondOwn] at isSecond
            exact (Nat.lt_irrefl _ (attached.opened second _ isSecond)).elim
        · by_cases secondOwn : second = topic
          · subst secondOwn
            rw [own] at isSecond
            cases isSecond
            rw [others first firstOwn] at isFirst
            exact (Nat.lt_irrefl _ (attached.opened first _ isFirst)).elim
          · rw [others first firstOwn] at isFirst
            rw [others second secondOwn] at isSecond
            exact attached.distinct first second channel isFirst isSecond

theorem getElem?_of_append
    {α : Type} {items : List α} {last item : α} {index : Nat}
    (isItem : items[index]? = some item) :
    (items ++ [last])[index]? = some item := by
  rw [List.getElem?_append_left (List.getElem?_eq_some_iff.mp isItem).1]
  exact isItem

/-- A subscription makes no topic idle. -/
theorem Reclaimed.subscribe
    {bus : Bus} (reclaimed : bus.Reclaimed) (topic : Topic) :
    (bus.subscribe topic).Reclaimed := by
  intro other isIdle
  obtain ⟨channel, isChannel, unread⟩ := idle_iff.mp isIdle
  unfold Bus.subscribe at isChannel unread ⊢
  cases own : bus.channels topic with
  | some existing =>
      rw [own] at isChannel unread
      obtain ⟨index, receiver, isReceiver, isReleased, onTopic⟩ :=
        reclaimed other (idle_iff.mpr ⟨channel, isChannel,
          fun index receiver isReceiver =>
            unread index receiver (getElem?_of_append isReceiver)⟩)
      exact ⟨index, receiver, getElem?_of_append isReceiver, isReleased,
        onTopic⟩
  | none =>
      rw [own] at isChannel unread
      by_cases same : other = topic
      · subst same
        have isOpened : bus.opened = channel := by
          have updated :
              Function.update bus.channels other (some bus.opened) other =
                some channel :=
            isChannel
          rw [Function.update_self] at updated
          exact Option.some.inj updated
        refine (unread bus.receivers.length ⟨other, bus.opened, .live, []⟩
          ?_ rfl isOpened).elim
        exact List.getElem?_concat_length
      · have wasChannel : bus.channels other = some channel := by
          rw [← isChannel]
          exact (Function.update_of_ne same _ _).symm
        obtain ⟨index, receiver, isReceiver, isReleased, onTopic⟩ :=
          reclaimed other (idle_iff.mpr ⟨channel, wasChannel,
            fun index receiver isReceiver =>
              unread index receiver (getElem?_of_append isReceiver)⟩)
        exact ⟨index, receiver, getElem?_of_append isReceiver, isReleased,
          onTopic⟩

/-- Publishing changes no registration. -/
@[simp] theorem channels_publish (bus : Bus) (event : Event) :
    (bus.publish event).channels = bus.channels := by
  unfold publish
  split
  · rfl
  · rfl

@[simp] theorem opened_publish (bus : Bus) (event : Event) :
    (bus.publish event).opened = bus.opened := by
  unfold publish
  split
  · rfl
  · rfl

/-- What publishing does to a receiver. -/
theorem getElem?_publish (bus : Bus) (event : Event) (index : Nat) :
    (bus.publish event).receivers[index]? =
      bus.receivers[index]?.map fun receiver =>
        if receiver.phase = .live ∧
            bus.channels event.topic = some receiver.channel then
          { receiver with received := receiver.received ++ [event] }
        else
          receiver := by
  unfold publish
  cases isChannel : bus.channels event.topic with
  | none =>
      simp
  | some channel =>
      simp only [List.getElem?_map, Option.some.injEq]
      refine congrArg (fun change => Option.map change _) ?_
      funext receiver
      simp only [eq_comm]

theorem receiver_of_publish
    {bus : Bus} {event : Event} {index : Nat} {receiver : Receiver}
    (isReceiver : (bus.publish event).receivers[index]? = some receiver) :
    ∃ received,
      bus.receivers[index]? = some { receiver with received := received } := by
  rw [getElem?_publish] at isReceiver
  obtain ⟨before, isBefore, rfl⟩ := Option.map_eq_some_iff.mp isReceiver
  refine ⟨before.received, ?_⟩
  rw [isBefore]
  split
  · rfl
  · rfl

theorem receiver_publish
    {bus : Bus} {index : Nat} {receiver : Receiver}
    (event : Event)
    (isReceiver : bus.receivers[index]? = some receiver) :
    ∃ received,
      (bus.publish event).receivers[index]? =
        some { receiver with received := received } := by
  rw [getElem?_publish, isReceiver, Option.map_some]
  split
  · exact ⟨_, rfl⟩
  · exact ⟨receiver.received, rfl⟩

theorem Attached.publish
    {bus : Bus} (attached : bus.Attached) (event : Event) :
    (bus.publish event).Attached where
  registered := by
    intro index receiver isReceiver isLive
    obtain ⟨received, isBefore⟩ := receiver_of_publish isReceiver
    rw [channels_publish]
    have registered := attached.registered index _ isBefore
    exact registered isLive
  opened := by
    rw [channels_publish, opened_publish]
    exact attached.opened
  distinct := by
    rw [channels_publish]
    exact attached.distinct

theorem Reclaimed.publish
    {bus : Bus} (reclaimed : bus.Reclaimed) (event : Event) :
    (bus.publish event).Reclaimed := by
  intro topic isIdle
  obtain ⟨channel, isChannel, unread⟩ := idle_iff.mp isIdle
  rw [channels_publish] at isChannel
  have wasIdle : bus.idle topic = true := by
    refine idle_iff.mpr ⟨channel, isChannel, ?_⟩
    intro index receiver isReceiver isLive
    obtain ⟨received, isAfter⟩ := receiver_publish event isReceiver
    have notOwn := unread index _ isAfter
    exact notOwn isLive
  obtain ⟨index, receiver, isReceiver, isReleased, onTopic⟩ :=
    reclaimed topic wasIdle
  obtain ⟨received, isAfter⟩ := receiver_publish event isReceiver
  exact ⟨index, _, isAfter, isReleased, onTopic⟩

/-! ## Steps -/

/-- What holds between any two steps. -/
structure Sound (bus : Bus) : Prop where
  attached : bus.Attached
  reclaimed : bus.Reclaimed

theorem sound_empty : empty.Sound :=
  ⟨attached_empty, reclaimed_empty⟩

theorem Sound.evictAll
    {bus : Bus} (sound : bus.Sound) (topics : List Topic) :
    (topics.foldl Bus.evict bus).Sound := by
  induction topics generalizing bus with
  | nil =>
      exact sound
  | cons topic rest inductionHypothesis =>
      exact inductionHypothesis
        ⟨sound.attached.evict topic, sound.reclaimed.evict topic⟩

/-- The calls of `live` do not count. -/
theorem Sound.withCalls
    {bus : Bus} (sound : bus.Sound) (calls : List LiveCall) :
    ({ bus with calls := calls } : Bus).Sound :=
  ⟨⟨sound.attached.registered, sound.attached.opened,
    sound.attached.distinct⟩, sound.reclaimed⟩

/-- Every step of every operation keeps the invariant. -/
theorem Sound.step
    {bus next : Bus} {given : BusStep}
    (sound : bus.Sound)
    (made : bus.step given = some next) :
    next.Sound := by
  cases given with
  | subscribe topic =>
      cases made
      exact ⟨sound.attached.subscribe topic, sound.reclaimed.subscribe topic⟩
  | release index =>
      simp only [Bus.step] at made
      split at made
      next receiver isReceiver =>
          split at made
          next isLive =>
              cases made
              exact ⟨sound.attached.setPhase index (by decide),
                sound.reclaimed.release sound.attached isReceiver isLive⟩
          next =>
              cases made
      next =>
          cases made
  | evict index =>
      simp only [Bus.step] at made
      split at made
      next receiver isReceiver =>
          split at made
          next isReleased =>
              cases made
              exact ⟨(sound.attached.setPhase index (by decide)).evict _,
                sound.reclaimed.drop isReceiver isReleased⟩
          next =>
              cases made
      next =>
          cases made
  | liveRead topics =>
      cases made
      exact sound.withCalls _
  | liveWrite index =>
      simp only [Bus.step] at made
      split at made
      next call _ =>
          split at made
          next =>
              cases made
          next =>
              cases made
              exact (sound.evictAll call.dead).withCalls _
      next =>
          cases made
  | publish event =>
      cases made
      exact ⟨sound.attached.publish event, sound.reclaimed.publish event⟩

/-! ### What a receiver keeps -/

/--
A receiver keeps its topic and its channel, and once its life is over it does not
live again.
-/
def Continues (bus next : Bus) : Prop :=
  ∀ (index : Nat) (receiver : Receiver),
    bus.receivers[index]? = some receiver →
    ∃ later : Receiver,
      next.receivers[index]? = some later ∧
        later.topic = receiver.topic ∧
        later.channel = receiver.channel ∧
        (later.phase = .live → receiver.phase = .live)

theorem Continues.refl (bus : Bus) : bus.Continues bus :=
  fun _ receiver isReceiver => ⟨receiver, isReceiver, rfl, rfl, id⟩

theorem Continues.trans
    {first second third : Bus}
    (before : first.Continues second) (after : second.Continues third) :
    first.Continues third := by
  intro index receiver isReceiver
  obtain ⟨middle, isMiddle, sameTopic, sameChannel, wasLive⟩ :=
    before index receiver isReceiver
  obtain ⟨later, isLater, laterTopic, laterChannel, middleLive⟩ :=
    after index middle isMiddle
  exact ⟨later, isLater, laterTopic.trans sameTopic,
    laterChannel.trans sameChannel, fun isLive => wasLive (middleLive isLive)⟩

theorem continues_of_receivers
    {bus next : Bus} (same : next.receivers = bus.receivers) :
    bus.Continues next := by
  intro index receiver isReceiver
  rw [← same] at isReceiver
  exact ⟨receiver, isReceiver, rfl, rfl, id⟩

theorem continues_setPhase
    (bus : Bus) (index : Nat) {phase : ReceiverPhase}
    (leaves : phase ≠ .live) :
    bus.Continues (bus.setPhase index phase) := by
  intro other receiver isReceiver
  by_cases same : index = other
  · subst same
    exact ⟨_, getElem?_setPhase_self isReceiver phase, rfl, rfl,
      fun isLive => (leaves isLive).elim⟩
  · refine ⟨receiver, ?_, rfl, rfl, id⟩
    rw [getElem?_setPhase, if_neg same]
    exact isReceiver

theorem receivers_evictAll (bus : Bus) (topics : List Topic) :
    (topics.foldl evict bus).receivers = bus.receivers := by
  induction topics generalizing bus with
  | nil =>
      rfl
  | cons topic rest inductionHypothesis =>
      rw [List.foldl_cons, inductionHypothesis, receivers_evict]

theorem continues_of_step
    {bus next : Bus} {given : BusStep}
    (made : bus.step given = some next) :
    bus.Continues next := by
  cases given with
  | subscribe topic =>
      cases made
      intro index receiver isReceiver
      refine ⟨receiver, ?_, rfl, rfl, id⟩
      unfold subscribe
      split
      · exact getElem?_of_append isReceiver
      · exact getElem?_of_append isReceiver
  | release index =>
      simp only [step] at made
      split at made
      next =>
          split at made
          next =>
              cases made
              exact continues_setPhase bus index (by decide)
          next =>
              cases made
      next =>
          cases made
  | evict index =>
      simp only [step] at made
      split at made
      next =>
          split at made
          next =>
              cases made
              exact (continues_setPhase bus index (by decide)).trans
                (continues_of_receivers (receivers_evict _ _))
          next =>
              cases made
      next =>
          cases made
  | liveRead topics =>
      cases made
      exact continues_of_receivers rfl
  | liveWrite index =>
      simp only [step] at made
      split at made
      next call _ =>
          split at made
          next =>
              cases made
          next =>
              cases made
              exact continues_of_receivers (receivers_evictAll bus call.dead)
      next =>
          cases made
  | publish event =>
      cases made
      intro index receiver isReceiver
      obtain ⟨received, isAfter⟩ := receiver_publish event isReceiver
      exact ⟨_, isAfter, rfl, rfl, id⟩

/-! ## Runs -/

theorem run_cons (bus : Bus) (given : BusStep) (steps : List BusStep) :
    bus.run (given :: steps) = (bus.step given).bind (·.run steps) :=
  rfl

theorem Sound.run
    {bus final : Bus} {steps : List BusStep}
    (sound : bus.Sound)
    (ran : bus.run steps = some final) :
    final.Sound := by
  induction steps generalizing bus with
  | nil =>
      cases ran
      exact sound
  | cons given steps inductionHypothesis =>
      rw [run_cons] at ran
      obtain ⟨next, made, ran⟩ := Option.bind_eq_some_iff.mp ran
      exact inductionHypothesis (sound.step made) ran

theorem continues_of_run
    {bus final : Bus} {steps : List BusStep}
    (ran : bus.run steps = some final) :
    bus.Continues final := by
  induction steps generalizing bus with
  | nil =>
      cases ran
      exact .refl _
  | cons given steps inductionHypothesis =>
      rw [run_cons] at ran
      obtain ⟨next, made, ran⟩ := Option.bind_eq_some_iff.mp ran
      exact (continues_of_step made).trans (inductionHypothesis ran)

end Bus

/--
Whatever the order of the steps of subscriptions, drops, evictions and
publications: the channel registered for the topic of a live receiver is its own,
and still is after any further steps that leave it alive; what is published on
its topic reaches it; publishing registers nothing; and when every drop that has
begun is over, every registered channel has a receiver.
-/
theorem no_receiver_stranded
    {steps : List BusStep} {bus : Bus}
    (ran : Bus.empty.run steps = some bus) :
    (∀ (index : Nat) (receiver : Receiver),
        bus.receivers[index]? = some receiver →
        receiver.phase = .live →
        bus.channels receiver.topic = some receiver.channel) ∧
      (∀ (more : List BusStep) (final : Bus) (index : Nat)
          (receiver later : Receiver),
        bus.run more = some final →
        bus.receivers[index]? = some receiver →
        final.receivers[index]? = some later →
        later.phase = .live →
        bus.channels receiver.topic = some later.channel ∧
          final.channels receiver.topic = some later.channel) ∧
      (∀ (event : Event) (published : Bus),
        bus.step (.publish event) = some published →
        published.channels = bus.channels ∧
          ∀ (index : Nat) (receiver : Receiver),
            bus.receivers[index]? = some receiver →
            receiver.phase = .live →
            receiver.topic = event.topic →
            published.receivers[index]? =
              some { receiver with
                received := receiver.received ++ [event] }) ∧
      ((∀ (index : Nat) (receiver : Receiver),
          bus.receivers[index]? = some receiver →
          receiver.phase ≠ .released) →
        ∀ topic channel,
          bus.channels topic = some channel →
          bus.receiverCount channel ≠ 0) := by
  have sound : bus.Sound := Bus.sound_empty.run ran
  refine ⟨sound.attached.registered, ?_, ?_, ?_⟩
  · intro more final index receiver later ranMore isReceiver isLater isLive
    obtain ⟨same, isSame, sameTopic, sameChannel, wasLive⟩ :=
      Bus.continues_of_run ranMore index receiver isReceiver
    rw [isLater] at isSame
    cases isSame
    have before :=
      sound.attached.registered index receiver isReceiver (wasLive isLive)
    have after :=
      (sound.run ranMore).attached.registered index later isLater isLive
    rw [sameTopic] at after
    rw [sameChannel]
    rw [sameChannel] at after
    exact ⟨before, after⟩
  · intro event published made
    cases made
    refine ⟨Bus.channels_publish bus event, ?_⟩
    intro index receiver isReceiver isLive onTopic
    have registered :=
      sound.attached.registered index receiver isReceiver isLive
    rw [onTopic] at registered
    rw [Bus.getElem?_publish, isReceiver, Option.map_some,
      if_pos ⟨isLive, registered⟩]
  · intro settled topic channel isChannel counted
    have isIdle : bus.idle topic = true := by
      simp [Bus.idle, isChannel, counted]
    obtain ⟨index, receiver, isReceiver, isReleased, _⟩ :=
      sound.reclaimed topic isIdle
    exact settled index receiver isReceiver isReleased

end Quadpod

namespace Quadpod.Reference

/-- A topic. -/
def photos : Topic := ⟨"https://pod.example/photos/".toList⟩

/--
Two receivers of a topic are dropped at once, and a third arrives between the
evictions, while `live` is between its locks.
-/
def crossedDrops : List BusStep :=
  [.subscribe photos, .subscribe photos, .release 0, .release 1,
    .liveRead [photos], .evict 0, .subscribe photos, .evict 1, .liveWrite 0]

/-- The third receiver keeps the channel that was opened for it. -/
theorem crossedDrops_strand_nobody :
    ∃ bus,
      Bus.empty.run crossedDrops = some bus ∧
        bus.receivers[2]? = some ⟨photos, 1, .live, []⟩ ∧
        bus.channels photos = some 1 := by
  have isSome : (Bus.empty.run crossedDrops).isSome = true := by
    decide
  obtain ⟨bus, ran⟩ := Option.isSome_iff_exists.mp isSome
  have third :
      (Bus.empty.run crossedDrops).bind (·.receivers[2]?) =
        some ⟨photos, 1, .live, []⟩ := by
    decide
  rw [ran] at third
  exact ⟨bus, ran, third,
    (no_receiver_stranded ran).1 2 ⟨photos, 1, .live, []⟩ third rfl⟩

end Quadpod.Reference
