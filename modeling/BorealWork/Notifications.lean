/- The post-commit notification log of the service: a bounded log of revisions, subscribers that hold
a cursor into it, and which publications a subscriber can miss. -/
import BorealWork.Library.Machines
import BorealWork.Library.Sorting

namespace Boreal.Service
open Machines Sorting

section Log

structure RevisionNotification where
  revision : UInt64
  affectedSubjects : List String
  deriving DecidableEq

inductive NotificationError
  | zeroCapacity
  | revisionWentBackwards (previous next : UInt64)
  deriving DecidableEq

structure NotificationState where
  latestRevision : UInt64
  entries : List RevisionNotification
  deriving DecidableEq

structure NotificationHub where
  capacity : ℕ
  capacity_pos : 0 < capacity

namespace NotificationHub

def new (capacity : ℕ) : Except NotificationError NotificationHub :=
  if positive : 0 < capacity then .ok ⟨capacity, positive⟩ else .error .zeroCapacity

end NotificationHub

def emptyLog : NotificationState := ⟨0, []⟩

def deduplicateSubjects (subjects : List String) : List String := (sortOn id subjects).dedup

/-- The subjects of a repeated publication join the newest entry, where there is one. -/
def mergeLast (entries : List RevisionNotification) (subjects : List String) :
    List RevisionNotification :=
  match entries.getLast? with
  | some last => entries.dropLast ++
      [{ last with affectedSubjects := deduplicateSubjects (last.affectedSubjects ++ subjects) }]
  | none => entries

/-- The oldest entries go until the rest fits. -/
def evict (capacity : ℕ) : List RevisionNotification → List RevisionNotification
  | [] => []
  | entry :: entries =>
    if capacity < entries.length + 1 then evict capacity entries else entry :: entries

def publish (hub : NotificationHub) (state : NotificationState) (revision : UInt64)
    (subjects : List String) : Except NotificationError Unit × NotificationState :=
  if revision < state.latestRevision then
    (.error (.revisionWentBackwards state.latestRevision revision), state)
  else
    let subjects := deduplicateSubjects subjects
    if revision = state.latestRevision then
      (.ok (), { state with entries := mergeLast state.entries subjects })
    else
      (.ok (),
        { latestRevision := revision
          entries := evict hub.capacity (state.entries ++ [⟨revision, subjects⟩]) })

structure Replay where
  cursor : UInt64
  latestRevision : UInt64
  notifications : List RevisionNotification
  resnapshot : Bool
  deriving DecidableEq

def saturatingSucc (revision : UInt64) : UInt64 :=
  if revision + 1 = 0 then revision else revision + 1

def oldestRevision (state : NotificationState) : UInt64 :=
  state.entries.head?.elim state.latestRevision RevisionNotification.revision

def replay (state : NotificationState) (cursor : UInt64) : Replay :=
  let resnapshot := decide (saturatingSucc cursor < oldestRevision state)
  { cursor := if resnapshot then state.latestRevision else cursor
    latestRevision := state.latestRevision
    notifications := if resnapshot then [] else state.entries.filter (cursor < ·.revision)
    resnapshot }

inductive SubscriptionUpdate
  | notification (notification : RevisionNotification)
  | resnapshotRequired (latestRevision cursor : UInt64)
  | empty
  deriving DecidableEq

/-- A subscriber keeps nothing but the revision it has reached. -/
structure Subscription where
  log : NotificationState
  cursor : UInt64
  deriving DecidableEq

def subscribe (log : NotificationState) (cursor : UInt64) : Subscription := ⟨log, cursor⟩

def poll (subscription : Subscription) : SubscriptionUpdate × Subscription :=
  let replay := replay subscription.log subscription.cursor
  if replay.resnapshot then
    (.resnapshotRequired replay.latestRevision replay.cursor, { subscription with cursor := replay.cursor })
  else match replay.notifications with
    | [] => (.empty, subscription)
    | notification :: _ =>
      (.notification notification, { subscription with cursor := notification.revision })

end Log

inductive Activity
  | publish (revision : UInt64) (subjects : List String)
  | poll
  deriving DecidableEq

inductive Response
  | published (outcome : Except NotificationError Unit)
  | polled (update : SubscriptionUpdate)

/-- Publications and the polls of one subscriber. The polls of others change nothing here, and what
was published before it subscribed counts as published before its first poll. -/
def serve (hub : NotificationHub) (subscription : Subscription) :
    Activity → Response × Subscription
  | .publish revision subjects =>
    let (outcome, log) := publish hub subscription.log revision subjects
    (.published outcome, { subscription with log })
  | .poll =>
    let (update, subscription) := poll subscription
    (.polled update, subscription)

abbrev Moment := Entry Subscription Activity Response

def publishedPairs : Moment → List (UInt64 × String)
  | ⟨_, .publish revision subjects, .published (.ok ())⟩ => subjects.map (revision, ·)
  | _ => []

def delivery : Moment → Option RevisionNotification
  | ⟨_, _, .polled (.notification notification)⟩ => some notification
  | _ => none

def resnapshotRevision : Moment → Option UInt64
  | ⟨_, _, .polled (.resnapshotRequired latest _)⟩ => some latest
  | _ => none

def Reached (history : List Moment) (pair : UInt64 × String) : Prop :=
  (∃ notification ∈ history.filterMap delivery,
    notification.revision = pair.1 ∧ pair.2 ∈ notification.affectedSubjects) ∨
  ∃ earlier moment later, history = earlier ++ moment :: later ∧
    pair ∈ earlier.flatMap publishedPairs ∧ ∃ latest ∈ resnapshotRevision moment, pair.1 ≤ latest

/-- Whenever the subscriber would be told that nothing is left, everything published after its
starting cursor has reached it. -/
def Informed (start : UInt64) (history : List Moment) (subscription : Subscription) : Prop :=
  (poll subscription).1 = .empty →
    ∀ pair ∈ history.flatMap publishedPairs, start < pair.1 → Reached history pair

/-- The promise of the log to a subscriber over a run, at every point of it. -/
structure Delivers (hub : NotificationHub) (start : UInt64) (activities : List Activity) : Prop where
  informed : ∀ earlier, earlier <+: activities →
    Informed start (history (serve hub) (subscribe emptyLog start) earlier)
      (final (serve hub) (subscribe emptyLog start) earlier)
  ordered : ((history (serve hub) (subscribe emptyLog start) activities).filterMap delivery).Pairwise
    (·.revision < ·.revision)

/-- A publication that repeats the newest revision after the subscriber's cursor has come to it
brings no new subject. -/
def Timely (start : UInt64) (moment : Moment) : Prop :=
  ∀ revision subjects, moment.call = .publish revision subjects →
    revision = moment.before.log.latestRevision → start < revision →
    revision ≤ moment.before.cursor →
      ∀ subject ∈ subjects, ∃ last ∈ moment.before.log.entries.getLast?,
        subject ∈ last.affectedSubjects

section Retention

variable {hub : NotificationHub} {state : NotificationState} {published : List (UInt64 × String)}

theorem saturatingSucc_lt {cursor revision : UInt64} :
    saturatingSucc cursor < revision ↔ cursor.toNat + 1 < revision.toNat := by
  unfold saturatingSucc
  have bound := cursor.toNat_lt
  have bound' := revision.toNat_lt
  split_ifs with wraps
  · rw [← UInt64.toNat_inj] at wraps
    rw [UInt64.lt_iff_toNat_lt]
    simp at wraps
    omega
  · rw [← UInt64.toNat_inj] at wraps
    rw [UInt64.lt_iff_toNat_lt]
    simp at wraps ⊢
    omega

theorem mem_deduplicateSubjects {subject : String} {subjects : List String} :
    subject ∈ deduplicateSubjects subjects ↔ subject ∈ subjects := by
  unfold deduplicateSubjects
  rw [List.mem_dedup, mem_sortOn]

theorem evict_suffix (capacity : ℕ) (entries : List RevisionNotification) :
    evict capacity entries <:+ entries := by
  induction entries with
  | nil => exact List.suffix_refl _
  | cons entry entries ih =>
    rw [evict]
    split_ifs
    · exact ih.trans (List.suffix_cons entry entries)
    · exact List.suffix_refl _

variable {entries : List RevisionNotification}

theorem evict_ne_nil {capacity : ℕ} (positive : 0 < capacity)
    (some : entries ≠ []) : evict capacity entries ≠ [] := by
  induction entries with
  | nil => exact (some rfl).elim
  | cons entry entries ih =>
    rw [evict]
    split_ifs with more
    · apply ih
      rintro rfl
      simp only [List.length_nil] at more
      omega
    · exact List.cons_ne_nil _ _

/-- The log still holds the publication. -/
def Held (state : NotificationState) (pair : UInt64 × String) : Prop :=
  ∃ entry ∈ state.entries, entry.revision = pair.1 ∧ pair.2 ∈ entry.affectedSubjects

/-- What a log keeps of all that was published: every pair is in the entry of its revision unless
that entry was evicted. -/
structure Retains (state : NotificationState) (published : List (UInt64 × String)) : Prop where
  ascending : state.entries.Pairwise (·.revision < ·.revision)
  newest : ∀ entry ∈ state.entries.getLast?, entry.revision = state.latestRevision
  unused : state.entries = [] → state.latestRevision = 0
  known : ∀ entry ∈ state.entries, ∀ subject ∈ entry.affectedSubjects,
    (entry.revision, subject) ∈ published
  below : ∀ pair ∈ published, pair.1 ≤ state.latestRevision
  retained : ∀ pair ∈ published, pair.1 = 0 ∨ Held state pair ∨ pair.1 < oldestRevision state

theorem retains_empty : Retains emptyLog [] :=
  { ascending := List.Pairwise.nil
    newest := by simp [emptyLog]
    unused := fun _ => rfl
    known := by simp [emptyLog]
    below := by simp
    retained := by simp }

theorem oldestRevision_cons {latest : UInt64} {entry : RevisionNotification}
    :
    oldestRevision ⟨latest, entry :: entries⟩ = entry.revision := rfl

theorem ascending_le_last {last : RevisionNotification}
    (ascending : (entries ++ [last]).Pairwise (·.revision < ·.revision)) :
    ∀ entry ∈ entries ++ [last], entry.revision ≤ last.revision := by
  intro entry member
  rcases List.mem_append.mp member with early | final
  · exact UInt64.le_of_lt ((List.pairwise_append.mp ascending).2.2 entry early last
      (List.mem_singleton_self last))
  · cases List.mem_singleton.mp final
    exact UInt64.le_refl _

theorem Retains.entry_le (retains : Retains state published) {entry : RevisionNotification}
    (member : entry ∈ state.entries) : entry.revision ≤ state.latestRevision := by
  obtain ⟨latest, entries⟩ := state
  rcases List.eq_nil_or_concat' entries with rfl | ⟨front, last, rfl⟩
  · cases member
  · rw [← retains.newest last (by simp)]
    exact ascending_le_last retains.ascending entry member

theorem Retains.oldest_le (retains : Retains state published) :
    oldestRevision state ≤ state.latestRevision := by
  obtain ⟨latest, entries⟩ := state
  cases entries with
  | nil => exact UInt64.le_refl _
  | cons entry entries => exact retains.entry_le List.mem_cons_self

theorem Retains.newest_holds (retains : Retains state published) {pair : UInt64 × String}
    (member : pair ∈ published) (positive : pair.1 ≠ 0) (newest : pair.1 = state.latestRevision) :
    ∃ last ∈ state.entries.getLast?, pair.2 ∈ last.affectedSubjects := by
  rcases retains.retained pair member with zero | ⟨entry, kept, revision, subject⟩ | evicted
  · exact (positive zero).elim
  · obtain ⟨latest, entries⟩ := state
    rcases List.eq_nil_or_concat' entries with rfl | ⟨front, last, rfl⟩
    · cases kept
    · refine ⟨last, by simp, ?_⟩
      have latest_eq : last.revision = latest := retains.newest last (by simp)
      rcases List.mem_append.mp kept with early | final
      · have less := (List.pairwise_append.mp retains.ascending).2.2 entry early last
          (List.mem_singleton_self last)
        simp only at newest
        grind
      · rwa [← List.mem_singleton.mp final]
  · have older := retains.oldest_le
    grind

theorem Retains.repeated (retains : Retains state published) (subjects : List String) :
    Retains { state with entries := mergeLast state.entries (deduplicateSubjects subjects) }
      (published ++ subjects.map (state.latestRevision, ·)) := by
  obtain ⟨latest, entries⟩ := state
  rcases List.eq_nil_or_concat' entries with rfl | ⟨front, last, rfl⟩
  · have unused : latest = 0 := retains.unused rfl
    refine ⟨List.Pairwise.nil, by simp [mergeLast], fun _ => unused, by simp [mergeLast], ?_, ?_⟩
    · intro pair member
      rcases List.mem_append.mp member with old | new
      · exact retains.below pair old
      · obtain ⟨subject, -, rfl⟩ := List.mem_map.mp new
        exact UInt64.le_refl _
    · intro pair member
      rcases List.mem_append.mp member with old | new
      · exact retains.retained pair old
      · obtain ⟨subject, -, rfl⟩ := List.mem_map.mp new
        exact .inl unused
  · have revision : last.revision = latest := retains.newest last (by simp)
    have merged : mergeLast (front ++ [last]) (deduplicateSubjects subjects) =
        front ++ [⟨last.revision,
          deduplicateSubjects (last.affectedSubjects ++ deduplicateSubjects subjects)⟩] := by
      simp [mergeLast]
    have oldest : oldestRevision ⟨latest, front ++ [⟨last.revision,
        deduplicateSubjects (last.affectedSubjects ++ deduplicateSubjects subjects)⟩]⟩ =
        oldestRevision ⟨latest, front ++ [last]⟩ := by
      cases front <;> rfl
    simp only [merged]
    have ascending := retains.ascending
    rw [List.pairwise_append] at ascending
    refine ⟨?_, by simp [revision], by simp, ?_, ?_, ?_⟩
    · rw [List.pairwise_append]
      refine ⟨ascending.1, List.pairwise_singleton _ _, ?_⟩
      intro entry early newest member
      rw [List.mem_singleton.mp member]
      exact ascending.2.2 entry early last (List.mem_singleton_self last)
    · intro entry member subject among
      rcases List.mem_append.mp member with early | final
      · exact List.mem_append_left _
          (retains.known entry (List.mem_append_left _ early) subject among)
      · cases List.mem_singleton.mp final
        rw [mem_deduplicateSubjects, List.mem_append, mem_deduplicateSubjects] at among
        rcases among with old | new
        · exact List.mem_append_left _ (retains.known last (by simp) subject old)
        · exact List.mem_append_right _ (List.mem_map.mpr ⟨subject, new, by rw [revision]⟩)
    · intro pair member
      rcases List.mem_append.mp member with old | new
      · exact retains.below pair old
      · obtain ⟨subject, -, rfl⟩ := List.mem_map.mp new
        exact UInt64.le_refl _
    · intro pair member
      rw [oldest]
      rcases List.mem_append.mp member with old | new
      · rcases retains.retained pair old with zero | ⟨entry, kept, same, subject⟩ | evicted
        · exact .inl zero
        · refine .inr (.inl ?_)
          rcases List.mem_append.mp kept with early | final
          · exact ⟨entry, List.mem_append_left _ early, same, subject⟩
          · cases List.mem_singleton.mp final
            refine ⟨_, List.mem_append_right _ (List.mem_singleton_self _), same, ?_⟩
            exact mem_deduplicateSubjects.mpr (List.mem_append_left _ subject)
        · exact .inr (.inr evicted)
      · obtain ⟨subject, among, rfl⟩ := List.mem_map.mp new
        refine .inr (.inl ⟨_, List.mem_append_right _ (List.mem_singleton_self _), revision, ?_⟩)
        exact mem_deduplicateSubjects.mpr
          (List.mem_append_right _ (mem_deduplicateSubjects.mpr among))

theorem evict_split {capacity : ℕ} (positive : 0 < capacity) (entries : List RevisionNotification)
    (newest : RevisionNotification) :
    ∃ gone first kept, entries ++ [newest] = gone ++ first :: kept ∧
      evict capacity (entries ++ [newest]) = first :: kept := by
  obtain ⟨gone, split⟩ := evict_suffix capacity (entries ++ [newest])
  have some := evict_ne_nil positive
    (List.append_ne_nil_of_right_ne_nil entries (List.cons_ne_nil newest []))
  obtain ⟨first, kept, rest⟩ := List.exists_cons_of_ne_nil some
  exact ⟨gone, first, kept, by rw [← rest, split], rest⟩

theorem Retains.advanced (retains : Retains state published) {revision : UInt64}
    (later : state.latestRevision < revision) (subjects : List String) :
    Retains ⟨revision,
        evict hub.capacity (state.entries ++ [⟨revision, deduplicateSubjects subjects⟩])⟩
      (published ++ subjects.map (revision, ·)) := by
  obtain ⟨gone, first, kept, split, rest⟩ :=
    evict_split hub.capacity_pos state.entries ⟨revision, deduplicateSubjects subjects⟩
  rw [rest]
  have ascending : (gone ++ first :: kept).Pairwise (·.revision < ·.revision) := by
    rw [← split, List.pairwise_append]
    refine ⟨retains.ascending, List.pairwise_singleton _ _, ?_⟩
    intro entry member newest final
    rw [List.mem_singleton.mp final]
    have older := retains.entry_le member
    grind
  have known : ∀ entry ∈ gone ++ first :: kept, ∀ subject ∈ entry.affectedSubjects,
      (entry.revision, subject) ∈ published ++ subjects.map (revision, ·) := by
    rw [← split]
    intro entry member subject among
    rcases List.mem_append.mp member with old | new
    · exact List.mem_append_left _ (retains.known entry old subject among)
    · cases List.mem_singleton.mp new
      exact List.mem_append_right _
        (List.mem_map.mpr ⟨subject, mem_deduplicateSubjects.mp among, rfl⟩)
  -- An entry of the longer log is still there, or older than the first that is.
  have place : ∀ pair, (∃ entry ∈ gone ++ first :: kept,
      entry.revision = pair.1 ∧ pair.2 ∈ entry.affectedSubjects) →
      Held ⟨revision, first :: kept⟩ pair ∨ pair.1 < first.revision := by
    rintro pair ⟨entry, member, same, subject⟩
    rcases List.mem_append.mp member with evicted | remaining
    · right
      rw [← same]
      exact (List.pairwise_append.mp ascending).2.2 entry evicted first List.mem_cons_self
    · exact .inl ⟨entry, remaining, same, subject⟩
  have last : (first :: kept).getLast? =
      some ⟨revision, deduplicateSubjects subjects⟩ := by
    have whole : (gone ++ first :: kept).getLast? =
        some ⟨revision, deduplicateSubjects subjects⟩ := by
      rw [← split]
      simp
    rwa [List.getLast?_append_of_ne_nil _ (List.cons_ne_nil _ _)] at whole
  have oldest : ∀ pair : UInt64 × String, pair.1 < oldestRevision state → pair.1 < first.revision := by
    obtain ⟨latest, entries⟩ := state
    intro pair evicted
    cases entries with
    | nil =>
      have unused : latest = 0 := retains.unused rfl
      rw [oldestRevision, List.head?_nil, Option.elim_none, unused] at evicted
      exact (UInt64.not_lt_zero evicted).elim
    | cons entry entries =>
      rw [oldestRevision_cons] at evicted
      cases gone with
      | nil => rwa [← (List.cons.inj split).1]
      | cons evictedEntry gone =>
        rw [(List.cons.inj split).1] at evicted
        have order := (List.pairwise_append.mp ascending).2.2 evictedEntry List.mem_cons_self
          first List.mem_cons_self
        exact UInt64.lt_trans evicted order
  refine ⟨(List.pairwise_append.mp ascending).2.1, ?_, by simp, ?_, ?_, ?_⟩
  · rw [last]
    rintro entry ⟨⟩
    rfl
  · exact fun entry member => known entry (List.mem_append_right _ member)
  · intro pair member
    rcases List.mem_append.mp member with old | new
    · have older := retains.below pair old
      grind
    · obtain ⟨subject, -, rfl⟩ := List.mem_map.mp new
      exact UInt64.le_refl _
  · intro pair member
    rw [oldestRevision_cons]
    rcases List.mem_append.mp member with old | new
    · rcases retains.retained pair old with zero | held | evicted
      · exact .inl zero
      · obtain ⟨entry, member, same⟩ := held
        refine .inr (place pair ⟨entry, ?_, same⟩)
        rw [← split]
        exact List.mem_append_left _ member
      · exact .inr (.inr (oldest pair evicted))
    · obtain ⟨subject, among, rfl⟩ := List.mem_map.mp new
      refine .inr (place _ ⟨⟨revision, deduplicateSubjects subjects⟩, ?_, rfl,
        mem_deduplicateSubjects.mpr among⟩)
      rw [← split]
      exact List.mem_append_right _ (List.mem_singleton_self _)

theorem publish_cases (hub : NotificationHub) (state : NotificationState) (revision : UInt64)
    (subjects : List String) :
    (∃ error, publish hub state revision subjects = (.error error, state)) ∨
      (revision = state.latestRevision ∧ publish hub state revision subjects =
        (.ok (), { state with entries := mergeLast state.entries (deduplicateSubjects subjects) })) ∨
      (state.latestRevision < revision ∧ publish hub state revision subjects =
        (.ok (), ⟨revision,
          evict hub.capacity (state.entries ++ [⟨revision, deduplicateSubjects subjects⟩])⟩)) := by
  unfold publish
  split_ifs with backwards same
  · exact .inl ⟨_, rfl⟩
  · exact .inr (.inl ⟨same, rfl⟩)
  · refine .inr (.inr ⟨?_, rfl⟩)
    grind

/-- Everything a poll can do. -/
inductive PollSpec (subscription : Subscription) : SubscriptionUpdate × Subscription → Prop
  | resnapshot
      (behind : saturatingSucc subscription.cursor < oldestRevision subscription.log) :
      PollSpec subscription
        (.resnapshotRequired subscription.log.latestRevision subscription.log.latestRevision,
          { subscription with cursor := subscription.log.latestRevision })
  | notification {notification rest}
      (current : ¬saturatingSucc subscription.cursor < oldestRevision subscription.log)
      (next : subscription.log.entries.filter (subscription.cursor < ·.revision) =
        notification :: rest) :
      PollSpec subscription
        (.notification notification, { subscription with cursor := notification.revision })
  | empty (current : ¬saturatingSucc subscription.cursor < oldestRevision subscription.log)
      (rest : subscription.log.entries.filter (subscription.cursor < ·.revision) = []) :
      PollSpec subscription (.empty, subscription)

theorem poll_spec (subscription : Subscription) : PollSpec subscription (poll subscription) := by
  unfold poll replay
  by_cases behind : saturatingSucc subscription.cursor < oldestRevision subscription.log
  · simp only [behind, decide_true, if_true]
    exact .resnapshot behind
  · simp only [behind, decide_false, Bool.false_eq_true, if_false]
    split
    · exact .empty behind ‹_›
    · exact .notification behind ‹_›

theorem Retains.held (retains : Retains state published) {cursor : UInt64}
    (current : ¬saturatingSucc cursor < oldestRevision state) {pair : UInt64 × String}
    (member : pair ∈ published) (ahead : cursor < pair.1) : Held state pair := by
  rcases retains.retained pair member with zero | held | evicted
  · rw [zero] at ahead
    exact (UInt64.not_lt_zero ahead).elim
  · exact held
  · rw [saturatingSucc_lt] at current
    rw [UInt64.lt_iff_toNat_lt] at ahead evicted
    omega

end Retention

section Ledgers

variable {hub : NotificationHub} {start : UInt64} {history : List Moment} {subscription : Subscription}

/-- What a run keeps, with any publications: the log retains, the cursor came from the log, and the
notifications count upwards and carry published pairs only. -/
structure Followed (start : UInt64) (history : List Moment) (subscription : Subscription) : Prop where
  retains : Retains subscription.log (history.flatMap publishedPairs)
  cursor : subscription.cursor = start ∨ subscription.cursor ≤ subscription.log.latestRevision
  ordered : (history.filterMap delivery).Pairwise (·.revision < ·.revision)
  behind : ∀ notification ∈ history.filterMap delivery,
    notification.revision ≤ subscription.cursor
  genuine : ∀ notification ∈ history.filterMap delivery,
    ∀ subject ∈ notification.affectedSubjects,
      (notification.revision, subject) ∈ history.flatMap publishedPairs

def CaughtUp (start : UInt64) (history : List Moment) (subscription : Subscription) : Prop :=
  ∀ pair ∈ history.flatMap publishedPairs, start < pair.1 → pair.1 ≤ subscription.cursor →
    Reached history pair

theorem Reached.later {pair : UInt64 × String} (reached : Reached history pair) (more : List Moment) :
    Reached (history ++ more) pair := by
  rcases reached with ⟨notification, member, same⟩ | ⟨earlier, moment, later, rfl, rest⟩
  · refine .inl ⟨notification, ?_, same⟩
    rw [List.filterMap_append]
    exact List.mem_append_left _ member
  · exact .inr ⟨earlier, moment, later ++ more, by rw [List.append_assoc, List.cons_append], rest⟩

theorem followed_start (start : UInt64) : Followed start [] (subscribe emptyLog start) :=
  { retains := retains_empty
    cursor := .inl rfl
    ordered := List.Pairwise.nil
    behind := by simp
    genuine := by simp }

theorem flatMap_moment (history : List Moment) (moment : Moment) :
    (history ++ [moment]).flatMap publishedPairs =
      history.flatMap publishedPairs ++ publishedPairs moment := by
  rw [List.flatMap_append, List.flatMap_singleton]

theorem filterMap_moment (history : List Moment) (moment : Moment) :
    (history ++ [moment]).filterMap delivery =
      history.filterMap delivery ++ (delivery moment).toList := by
  rw [List.filterMap_append, List.filterMap_cons]
  cases delivery moment <;> rfl

theorem Followed.published (followed : Followed start history subscription) {moment : Moment}
    {log : NotificationState} (silent : delivery moment = none)
    (grown : subscription.log.latestRevision ≤ log.latestRevision)
    (retains : Retains log (history.flatMap publishedPairs ++ publishedPairs moment)) :
    Followed start (history ++ [moment]) { subscription with log } := by
  refine ⟨?_, ?_, ?_, ?_, ?_⟩
  · rwa [flatMap_moment]
  · exact followed.cursor.imp_right (fun below => UInt64.le_trans below grown)
  · rw [filterMap_moment, silent, Option.toList_none, List.append_nil]
    exact followed.ordered
  · rw [filterMap_moment, silent, Option.toList_none, List.append_nil]
    exact followed.behind
  · rw [filterMap_moment, silent, Option.toList_none, List.append_nil, flatMap_moment]
    intro notification member subject among
    exact List.mem_append_left _ (followed.genuine notification member subject among)

theorem Followed.polled (followed : Followed start history subscription) {moment : Moment}
    {cursor : UInt64} (still : publishedPairs moment = [])
    (advanced : subscription.cursor ≤ cursor) (within : cursor ≤ subscription.log.latestRevision)
    (new : ∀ notification ∈ delivery moment, notification ∈ subscription.log.entries ∧
      subscription.cursor < notification.revision ∧ notification.revision ≤ cursor) :
    Followed start (history ++ [moment]) { subscription with cursor } := by
  refine ⟨?_, .inr within, ?_, ?_, ?_⟩
  · rw [flatMap_moment, still, List.append_nil]
    exact followed.retains
  · rw [filterMap_moment, List.pairwise_append]
    refine ⟨followed.ordered, ?_, ?_⟩
    · cases delivery moment <;> simp
    · intro old member notification delivered
      have reached := followed.behind old member
      have ahead := (new notification (Option.mem_toList.mp delivered)).2.1
      grind
  · rw [filterMap_moment]
    intro notification member
    rcases List.mem_append.mp member with old | delivered
    · exact UInt64.le_trans (followed.behind notification old) advanced
    · exact (new notification (Option.mem_toList.mp delivered)).2.2
  · rw [filterMap_moment, flatMap_moment, still, List.append_nil]
    intro notification member
    rcases List.mem_append.mp member with old | delivered
    · exact followed.genuine notification old
    · exact followed.retains.known notification (new notification (Option.mem_toList.mp delivered)).1

theorem cursor_lt_latest {published : List (UInt64 × String)} (retains : Retains subscription.log published)
    (behind : saturatingSucc subscription.cursor < oldestRevision subscription.log) :
    subscription.cursor < subscription.log.latestRevision := by
  have older := retains.oldest_le
  rw [saturatingSucc_lt] at behind
  rw [UInt64.le_iff_toNat_le] at older
  rw [UInt64.lt_iff_toNat_lt]
  omega

theorem next_mem {notification : RevisionNotification} {rest : List RevisionNotification}
    (next : subscription.log.entries.filter (subscription.cursor < ·.revision) =
      notification :: rest) :
    notification ∈ subscription.log.entries ∧ subscription.cursor < notification.revision := by
  have member : notification ∈
      subscription.log.entries.filter (subscription.cursor < ·.revision) := by
    rw [next]
    exact List.mem_cons_self
  rw [List.mem_filter, decide_eq_true_iff] at member
  exact member

theorem next_first {published : List (UInt64 × String)}
    (retains : Retains subscription.log published) {notification kept : RevisionNotification}
    {rest : List RevisionNotification}
    (next : subscription.log.entries.filter (subscription.cursor < ·.revision) =
      notification :: rest)
    (held : kept ∈ subscription.log.entries) (ahead : subscription.cursor < kept.revision)
    (reached : kept.revision ≤ notification.revision) : kept = notification := by
  have member : kept ∈ notification :: rest := by
    rw [← next, List.mem_filter, decide_eq_true_iff]
    exact ⟨held, ahead⟩
  have ascending : (notification :: rest).Pairwise (·.revision < ·.revision) := by
    rw [← next]
    exact retains.ascending.filter _
  rcases List.mem_cons.mp member with same | later
  · exact same
  · have order := List.rel_of_pairwise_cons ascending later
    grind

theorem Followed.step (followed : Followed start history subscription) (activity : Activity) :
    Followed start (history ++ [entry (serve hub) subscription activity])
      (serve hub subscription activity).2 := by
  cases activity with
  | publish revision subjects =>
    rcases publish_cases hub subscription.log revision subjects with
      ⟨error, refused⟩ | ⟨same, done⟩ | ⟨later, done⟩
    · simp only [entry, serve, refused]
      apply followed.published rfl (UInt64.le_refl _)
      rw [publishedPairs, List.append_nil]
      · exact followed.retains
      · nofun
    · simp only [entry, serve, done]
      refine followed.published rfl ?_ ?_
      · exact UInt64.le_refl _
      · rw [publishedPairs, same]
        exact followed.retains.repeated subjects
    · simp only [entry, serve, done]
      apply followed.published rfl (UInt64.le_of_lt later)
      exact followed.retains.advanced later subjects
  | poll =>
    have spec := poll_spec subscription
    simp only [entry, serve]
    generalize poll subscription = outcome at spec ⊢
    cases spec with
    | resnapshot behind =>
      exact followed.polled rfl (UInt64.le_of_lt (cursor_lt_latest followed.retains behind))
        (UInt64.le_refl _) (by simp [delivery])
    | notification current next =>
      obtain ⟨held, ahead⟩ := next_mem next
      apply followed.polled rfl (UInt64.le_of_lt ahead) (followed.retains.entry_le held)
      rintro notification ⟨⟩
      exact ⟨held, ahead, UInt64.le_refl _⟩
    | empty current rest =>
      apply followed.published rfl (UInt64.le_refl _)
      rw [publishedPairs, List.append_nil]
      · exact followed.retains
      · nofun

theorem CaughtUp.publish (caughtUp : CaughtUp start history subscription)
    (followed : Followed start history subscription) {revision : UInt64} {subjects : List String}
    (timely : Timely start (entry (serve hub) subscription (.publish revision subjects))) :
    CaughtUp start (history ++ [entry (serve hub) subscription (.publish revision subjects)])
      (serve hub subscription (.publish revision subjects)).2 := by
  intro pair member after reached
  rw [flatMap_moment, List.mem_append] at member
  rcases member with old | new
  · exact (caughtUp pair old after reached).later _
  · have named : pair.1 = revision ∧ pair.2 ∈ subjects ∧ subscription.log.latestRevision ≤ revision := by
      rcases publish_cases hub subscription.log revision subjects with
        ⟨error, refused⟩ | ⟨same, done⟩ | ⟨later, done⟩
      · simp [entry, serve, refused, publishedPairs] at new
      · simp only [entry, serve, done, publishedPairs, List.mem_map] at new
        obtain ⟨subject, among, rfl⟩ := new
        exact ⟨rfl, among, by rw [same]; exact UInt64.le_refl _⟩
      · simp only [entry, serve, done, publishedPairs, List.mem_map] at new
        obtain ⟨subject, among, rfl⟩ := new
        exact ⟨rfl, among, UInt64.le_of_lt later⟩
    obtain ⟨rfl, among, forward⟩ := named
    -- The cursor has moved, so it cannot be ahead of the log.
    have newest : pair.1 = subscription.log.latestRevision := by
      have within := followed.cursor
      simp only [serve] at reached
      grind
    obtain ⟨last, isLast, present⟩ := timely pair.1 subjects rfl newest after reached pair.2 among
    have held := followed.retains.known last (List.mem_of_getLast? isLast) pair.2 present
    rw [followed.retains.newest last isLast, ← newest] at held
    exact (caughtUp pair held after reached).later _

theorem CaughtUp.poll (caughtUp : CaughtUp start history subscription)
    (followed : Followed start history subscription) :
    CaughtUp start (history ++ [entry (serve hub) subscription .poll])
      (serve hub subscription .poll).2 := by
  intro pair member after reached
  have still : publishedPairs (entry (serve hub) subscription .poll) = [] := rfl
  rw [flatMap_moment, still, List.append_nil] at member
  by_cases before : pair.1 ≤ subscription.cursor
  · exact (caughtUp pair member after before).later _
  · rw [UInt64.not_le] at before
    have spec := poll_spec subscription
    simp only [entry, serve] at reached ⊢
    generalize Service.poll subscription = outcome at spec reached ⊢
    cases spec with
    | resnapshot behind =>
      exact .inr ⟨history, _, [], rfl, member, _, rfl, reached⟩
    | notification current next =>
      obtain ⟨kept, held, same, subject⟩ := followed.retains.held current member before
      have first := next_first followed.retains next held (same ▸ before) (same ▸ reached)
      refine .inl ⟨kept, ?_, same, subject⟩
      rw [filterMap_moment, first]
      exact List.mem_append_right _ (Option.mem_toList.mpr rfl)
    | empty current rest =>
      have ahead : ¬pair.1 ≤ subscription.cursor := UInt64.not_le.mpr before
      exact (ahead reached).elim

theorem run_followed (hub : NotificationHub) (start : UInt64) (activities : List Activity) :
    Followed start (Machines.history (serve hub) (subscribe emptyLog start) activities)
      (final (serve hub) (subscribe emptyLog start) activities) :=
  history_ledger (followed_start start) activities fun _ _ activity _ followed =>
    followed.step activity

theorem run_caughtUp (hub : NotificationHub) (start : UInt64) (activities : List Activity)
    (timely : ∀ moment ∈ Machines.history (serve hub) (subscribe emptyLog start) activities,
      Timely start moment) :
    CaughtUp start (Machines.history (serve hub) (subscribe emptyLog start) activities)
      (final (serve hub) (subscribe emptyLog start) activities) := by
  have run := @history_ledger _ _ _ (serve hub)
    (fun history subscription => Followed start history subscription ∧
      ((∀ moment ∈ history, Timely start moment) → CaughtUp start history subscription))
    (subscribe emptyLog start) ⟨followed_start start, fun _ pair member => by simp at member⟩
    activities ?_
  · exact run.2 timely
  · rintro history subscription activity _ ⟨followed, caughtUp⟩
    refine ⟨followed.step activity, fun timely => ?_⟩
    have before := caughtUp (fun moment member => timely moment (List.mem_append_left _ member))
    cases activity with
    | publish revision subjects =>
      exact before.publish followed (timely _ (List.mem_append_right _ (List.mem_singleton_self _)))
    | poll => exact before.poll followed

theorem CaughtUp.informed (caughtUp : CaughtUp start history subscription)
    (followed : Followed start history subscription) : Informed start history subscription := by
  intro answered pair member after
  have spec := poll_spec subscription
  generalize Service.poll subscription = outcome at spec answered
  cases spec with
  | resnapshot _ => cases answered
  | notification _ _ => cases answered
  | empty current rest =>
    by_cases reached : pair.1 ≤ subscription.cursor
    · exact caughtUp pair member after reached
    · rw [UInt64.not_le] at reached
      obtain ⟨kept, held, same, -⟩ := followed.retains.held current member reached
      have left : kept ∈
          subscription.log.entries.filter (subscription.cursor < ·.revision) := by
        rw [List.mem_filter, decide_eq_true_iff]
        exact ⟨held, same ▸ reached⟩
      rw [rest] at left
      cases left

theorem Followed.reached_published (followed : Followed start history subscription)
    {activity : Activity} {pair : UInt64 × String}
    (silent : delivery (entry (serve hub) subscription activity) = none)
    (reached : Reached (history ++ [entry (serve hub) subscription activity]) pair) :
    pair ∈ history.flatMap publishedPairs := by
  rcases reached with ⟨notification, member, same, subject⟩ |
    ⟨earlier, moment, later, split, published, -⟩
  · rw [filterMap_moment, silent, Option.toList_none, List.append_nil] at member
    have genuine := followed.genuine notification member pair.2 subject
    rwa [same] at genuine
  · have front : earlier <+: history ++ [entry (serve hub) subscription activity] :=
      ⟨moment :: later, split.symm⟩
    rcases List.prefix_concat_iff.mp front with whole | ⟨rest, within⟩
    · rw [whole] at split
      have short := List.self_eq_append_right.mp split
      cases short
    · rw [← within, List.flatMap_append]
      exact List.mem_append_left _ published

theorem Followed.poll_empty (followed : Followed start history subscription)
    (reached : subscription.log.latestRevision ≤ subscription.cursor) :
    (Service.poll subscription).1 = .empty := by
  have spec := poll_spec subscription
  generalize Service.poll subscription = outcome at spec ⊢
  cases spec with
  | resnapshot behind =>
    exact (UInt64.not_lt.mpr reached (cursor_lt_latest followed.retains behind)).elim
  | notification current next =>
    obtain ⟨held, ahead⟩ := next_mem next
    have within := followed.retains.entry_le held
    grind
  | empty _ _ => rfl

theorem Followed.late (followed : Followed start history subscription) {revision : UInt64}
    {subjects : List String}
    (informed : Informed start
      (history ++ [entry (serve hub) subscription (.publish revision subjects)])
      (serve hub subscription (.publish revision subjects)).2) :
    Timely start (entry (serve hub) subscription (.publish revision subjects)) := by
  rintro _ _ ⟨⟩ newest after reached subject among
  simp only [entry] at newest reached ⊢
  subst newest
  have done : publish hub subscription.log subscription.log.latestRevision subjects = (.ok (),
      { subscription.log with
        entries := mergeLast subscription.log.entries (deduplicateSubjects subjects) }) := by
    unfold publish
    rw [if_neg (UInt64.lt_irrefl _), if_pos rfl]
  let activity := Activity.publish subscription.log.latestRevision subjects
  have next : Followed start (history ++ [entry (serve hub) subscription activity])
      (serve hub subscription activity).2 := followed.step activity
  have answered := next.poll_empty (by
    simp only [activity, serve, done]
    exact reached)
  have delivered := informed answered (subscription.log.latestRevision, subject) (by
    rw [flatMap_moment]
    simp only [entry, serve, done]
    exact List.mem_append_right _ (List.mem_map.mpr ⟨subject, among, rfl⟩)) after
  have published := followed.reached_published (by simp only [entry, serve]; rfl) delivered
  have positive : subscription.log.latestRevision ≠ 0 := by
    intro zero
    rw [zero] at after
    exact UInt64.not_lt_zero after
  exact followed.retains.newest_holds published positive rfl

end Ledgers

section Promise

variable {hub : NotificationHub} {start : UInt64}

/-- Exactly the runs whose repeated publications come in time keep the promise. -/
theorem delivers_iff_timely (hub : NotificationHub) (start : UInt64) (activities : List Activity) :
    Delivers hub start activities ↔
      ∀ moment ∈ history (serve hub) (subscribe emptyLog start) activities, Timely start moment := by
  constructor
  · intro delivers moment member
    obtain ⟨before, activity, after, rfl, rfl⟩ := mem_history.mp member
    have informed := delivers.informed (before ++ [activity])
      ⟨after, by rw [List.append_assoc, List.singleton_append]⟩
    rw [history_append, final_append] at informed
    cases activity with
    | publish revision subjects => exact (run_followed hub start before).late informed
    | poll => nofun
  · intro timely
    refine ⟨?_, (run_followed hub start activities).ordered⟩
    rintro earlier ⟨later, rfl⟩
    apply CaughtUp.informed _ (run_followed hub start earlier)
    apply run_caughtUp
    intro moment member
    apply timely
    rw [history_append]
    exact List.mem_append_left _ member

theorem late_subject_lost :
    ¬Delivers ⟨3, by decide⟩ 0 [.publish 1 ["work-1"], .poll, .publish 1 ["work-2"]] := by
  intro delivers
  have reached := delivers.informed _ (List.prefix_refl _) rfl (1, "work-2") (by decide) (by decide)
  have deliveries : (history (serve ⟨3, by decide⟩) (subscribe emptyLog 0)
      [.publish 1 ["work-1"], .poll, .publish 1 ["work-2"]]).filterMap delivery =
      [⟨1, ["work-1"]⟩] := by decide
  have resnapshots : (history (serve ⟨3, by decide⟩) (subscribe emptyLog 0)
      [.publish 1 ["work-1"], .poll, .publish 1 ["work-2"]]).filterMap resnapshotRevision = [] := by
    decide
  rcases reached with ⟨notification, member, -, subject⟩ |
    ⟨earlier, moment, later, split, -, latest, resnapshot, -⟩
  · rw [deliveries] at member
    cases List.mem_singleton.mp member
    revert subject
    decide
  · have member : latest ∈ (history (serve ⟨3, by decide⟩) (subscribe emptyLog 0)
        [.publish 1 ["work-1"], .poll, .publish 1 ["work-2"]]).filterMap resnapshotRevision := by
      rw [split, List.mem_filterMap]
      exact ⟨moment, List.mem_append_right _ List.mem_cons_self, resnapshot⟩
    rw [resnapshots] at member
    cases member

end Promise

end Boreal.Service
