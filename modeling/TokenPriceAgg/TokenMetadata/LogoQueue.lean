import TokenPriceAgg.Lib.BoundedWaiting
import TokenPriceAgg.TokenMetadata.LogoMaintenance

/-!
# The queue of the logos

The table is a queue: a round takes a batch of what is due, in the order of the next attempts, and each attempt puts its
identity behind what is due now.

* (tasks) a round asks for no more identities at once than it has permits, and as long as nothing raises no identity
  has two tasks;
* (waiting) an identity waits for the rows that are ahead of it and for those that are made due meanwhile, and for no
  others.
-/

namespace TokenPriceAgg

open PyLib

/-! ### Order -/

private theorem dueBefore_trans (a b c : Int × TokenKey) (hab : dueBefore a b) (hbc : dueBefore b c) :
    dueBefore a c := by
  simp only [dueBefore, Bool.or_eq_true, Bool.and_eq_true, decide_eq_true_eq] at *
  have haddress (h : a.2.2 ≤ b.2.2) (h' : b.2.2 ≤ c.2.2) : a.2.2 ≤ c.2.2 := String.le_trans h h'
  grind

private theorem dueBefore_total (a b : Int × TokenKey) : dueBefore a b || dueBefore b a := by
  simp only [dueBefore, Bool.or_eq_true, Bool.and_eq_true, decide_eq_true_eq]
  have haddress : a.2.2 ≤ b.2.2 ∨ b.2.2 ≤ a.2.2 := String.le_total a.2.2 b.2.2
  grind

/-- An earlier attempt of the same identity is before a later one. -/
private theorem dueBefore_of_le {m n : Int} (key : TokenKey) (h : m ≤ n) : dueBefore (m, key) (n, key) := by
  simp only [dueBefore, Bool.or_eq_true, Bool.and_eq_true, decide_eq_true_eq]
  have haddress : key.2 ≤ key.2 := String.le_refl key.2
  grind

private theorem le_of_dueBefore {a b : Int × TokenKey} (h : dueBefore a b) : a.1 ≤ b.1 := by
  simp only [dueBefore, Bool.or_eq_true, Bool.and_eq_true, decide_eq_true_eq] at h
  grind

/-! ### What is ahead of an identity -/

/-- The time of the next attempt. -/
def LogoStore.nextAttempt (store : LogoStore) (key : TokenKey) : Option Int :=
  (store.row? key).bind (·.nextAttemptAt)

/-- The other identities whose next attempt comes before the given time of an identity. -/
def LogoStore.ahead (store : LogoStore) (next : Int) (x : TokenKey) : List TokenKey :=
  (store.logos.items.filter fun (key, row) =>
    key ≠ x && row.val.nextAttemptAt.any fun m => dueBefore (m, key) (next, x)).map Prod.fst

section Ahead

variable {store store' : LogoStore} {n m : Int} {x key : TokenKey}

private theorem LogoStore.mem_ahead :
    key ∈ store.ahead n x ↔ key ≠ x ∧ ∃ m, store.nextAttempt key = some m ∧ dueBefore (m, key) (n, x) = true := by
  unfold ahead nextAttempt LogoStore.row? Table.row?
  constructor
  · intro h
    obtain ⟨⟨key', row⟩, hmem, rfl⟩ := List.mem_map.1 h
    obtain ⟨hitem, hcond⟩ := List.mem_filter.1 hmem
    obtain ⟨hne, hany⟩ := Bool.and_eq_true_iff.1 hcond
    obtain ⟨m, hm, hbefore⟩ := (Option.any_eq_true _ _).1 hany
    refine ⟨of_decide_eq_true hne, m, ?_, hbefore⟩
    rw [Dict.get?_eq_some.2 hitem]
    exact hm
  · rintro ⟨hne, m, hm, hbefore⟩
    obtain ⟨stored, hstored, hnext⟩ := Option.bind_eq_some_iff.1 hm
    obtain ⟨row, hrow, rfl⟩ := Option.map_eq_some_iff.1 hstored
    refine List.mem_map.2 ⟨(key, row), List.mem_filter.2 ⟨Dict.get?_eq_some.1 hrow, ?_⟩, rfl⟩
    rw [Bool.and_eq_true]
    exact ⟨decide_eq_true hne, (Option.any_eq_true _ _).2 ⟨m, hnext, hbefore⟩⟩

private theorem LogoStore.nodup_ahead (store : LogoStore) (n : Int) (x : TokenKey) : (store.ahead n x).Nodup :=
  store.logos.nodup.sublist (List.filter_sublist.map _)

/-- What a poll reads of a row. -/
def dueRow (now : Int) (entry : TokenKey × {row : TokenLogo // row.Checked}) : Option ((Int × TokenKey) × Int) :=
  match entry.2.val.nextAttemptAt with
  | some next => if next ≤ now then some ((next, entry.1), entry.2.val.failureCount) else none
  | none => none

private theorem dueRow_eq_some {now : Int} {entry : TokenKey × {row : TokenLogo // row.Checked}}
    {row : (Int × TokenKey) × Int} :
    dueRow now entry = some row ↔ entry.2.val.nextAttemptAt = some row.1.1 ∧ row.1.1 ≤ now ∧
      row = ((row.1.1, entry.1), entry.2.val.failureCount) := by
  unfold dueRow
  cases hnext : entry.2.val.nextAttemptAt with
  | none => exact iff_of_false nofun (fun h => nomatch h.1)
  | some next =>
    dsimp only
    constructor
    · intro h
      split at h
      · rename_i hle
        cases h
        exact ⟨rfl, hle, rfl⟩
      · cases h
    · rintro ⟨heq, hle, hrow⟩
      obtain rfl : next = row.1.1 := Option.some.inj heq
      rw [if_pos hle, ← hrow]

/-- The rows that are due. -/
def LogoStore.dueRows (store : LogoStore) (now : Int) : List ((Int × TokenKey) × Int) :=
  store.logos.items.filterMap (dueRow now)

private theorem getDueLogos_keys (store : LogoStore) (now : Int) (limit : Nat) :
    (getDueLogos store now limit).map (·.key) =
      (((store.dueRows now).mergeSort fun a b => dueBefore a.1 b.1).take limit).map (·.1.2) := by
  unfold getDueLogos
  rw [List.map_map]
  rfl

/-- Rows that are in order are taken as they are. -/
private theorem getDueLogos_of_pairwise {now : Int} {limit : Nat}
    (h : (store.dueRows now).Pairwise fun a b => dueBefore a.1 b.1 = true) :
    getDueLogos store now limit = ((store.dueRows now).take limit).map fun row => ⟨row.1.2.1, row.1.2.2, row.2⟩ := by
  unfold getDueLogos
  show (((store.dueRows now).mergeSort fun a b => dueBefore a.1 b.1).take limit).map _ = _
  rw [List.mergeSort_of_pairwise h]

private theorem LogoStore.nextAttempt_of_dueRow
    {now : Int} {row : (Int × TokenKey) × Int} (h : row ∈ store.dueRows now) :
    store.nextAttempt row.1.2 = some row.1.1 := by
  obtain ⟨entry, hentry, hrow⟩ := List.mem_filterMap.1 h
  obtain ⟨hnext, -, heq⟩ := dueRow_eq_some.1 hrow
  have hkey : row.1.2 = entry.1 := by rw [heq]
  unfold nextAttempt LogoStore.row? Table.row?
  rw [hkey, Dict.get?_eq_some.2 hentry]
  exact hnext

private theorem LogoStore.dueRow_of_nextAttempt {now : Int} (hnext : store.nextAttempt key = some m) (hdue : m ≤ now) :
    ∃ count, ((m, key), count) ∈ store.dueRows now := by
  obtain ⟨stored, hstored, hnext⟩ := Option.bind_eq_some_iff.1 hnext
  obtain ⟨row, hrow, rfl⟩ := Option.map_eq_some_iff.1 hstored
  exact ⟨row.val.failureCount, List.mem_filterMap.2
    ⟨(key, row), Dict.get?_eq_some.1 hrow, dueRow_eq_some.2 ⟨hnext, hdue, rfl⟩⟩⟩

private theorem LogoStore.nodup_dueRows (store : LogoStore) (now : Int) : ((store.dueRows now).map (·.1.2)).Nodup := by
  have hkeys := List.pairwise_map.1 store.logos.nodup
  refine List.pairwise_map.2 (List.Pairwise.filterMap (dueRow now) ?_ hkeys)
  intro entry entry' hne row hrow row' hrow'
  rw [(dueRow_eq_some.1 hrow).2.2, (dueRow_eq_some.1 hrow').2.2]
  exact hne

/-- A batch has no identity twice. -/
private theorem getDueLogos_nodup (store : LogoStore) (now : Int) (limit : Nat) :
    ((getDueLogos store now limit).map (·.key)).Nodup := by
  rw [getDueLogos_keys]
  have hperm := (List.mergeSort_perm (store.dueRows now) fun a b => dueBefore a.1 b.1).map fun row => row.1.2
  exact (hperm.nodup_iff.2 (store.nodup_dueRows now)).sublist ((List.take_sublist _ _).map _)

/-- Where an identity is due and not in the batch, the batch is full, of identities ahead of it. -/
private theorem getDueLogos_ahead {now : Int} {limit : Nat} (hnext : store.nextAttempt x = some m) (hn : m ≤ n)
    (hdue : m ≤ now) (hnot : x ∉ (getDueLogos store now limit).map (·.key)) :
    (getDueLogos store now limit).length = limit ∧
      ∀ key ∈ (getDueLogos store now limit).map (·.key), key ∈ store.ahead n x := by
  obtain ⟨count, hmem⟩ := LogoStore.dueRow_of_nextAttempt hnext hdue
  have hlength : (getDueLogos store now limit).length =
      (((store.dueRows now).mergeSort fun a b => dueBefore a.1 b.1).take limit).length := by
    have hkeys := congrArg List.length (getDueLogos_keys store now limit)
    rwa [List.length_map, List.length_map] at hkeys
  rw [hlength]
  rw [getDueLogos_keys] at hnot ⊢
  obtain ⟨hfull, hbefore⟩ := le_of_notMem_take (fun a b => dueBefore a.1 b.1)
    (fun a b c => dueBefore_trans a.1 b.1 c.1) (fun a b => dueBefore_total a.1 b.1) hmem
    fun h => hnot (List.mem_map_of_mem h)
  refine ⟨hfull, fun key hkey => ?_⟩
  have hne : key ≠ x := fun h => hnot (h ▸ hkey)
  obtain ⟨row, hrow, rfl⟩ := List.mem_map.1 hkey
  have hnext' := LogoStore.nextAttempt_of_dueRow (List.mem_mergeSort.1 (List.mem_of_mem_take hrow))
  have hrow' : dueBefore row.1 (n, x) = true := dueBefore_trans _ _ _ (hbefore row hrow) (dueBefore_of_le x hn)
  exact LogoStore.mem_ahead.2 ⟨hne, row.1.1, hnext', hrow'⟩

end Ahead

/-! ### Tasks -/

section Tasks

variable {env : LogoWorkerEnv} {s s' : LogoWorker}

/-- What every step keeps of the tasks. -/
structure LogoWorker.Bounded (env : LogoWorkerEnv) (s : LogoWorker) : Prop where
  rounds : ∀ id task, s.tasks.get? id = some task → id.1 ≤ s.round
  asking : ∀ round, s.asking round ≤ env.settings.concurrency
  batch : ∀ round, (s.tasksOf round).length ≤ env.settings.dueBatchSize

/-- Nothing raised in the current round. -/
def LogoWorker.Current (s : LogoWorker) : Prop := ∀ id task, s.tasks.get? id = some task → id.1 = s.round

private theorem asking_eq (s : LogoWorker) (round : Nat) :
    s.asking round = (s.tasks.items.filter fun task => task.2.candidates.isSome && task.1.1 = round).length := by
  unfold LogoWorker.asking LogoWorker.tasksOf
  rw [List.filter_filter]

/-- Tasks of the same rounds and with the same permits. -/
private theorem LogoWorker.Bounded.of_imp {tasks : Dict LogoTaskId LogoTask} (h : s.Bounded env)
    (himp : ∀ id task, tasks.get? id = some task → s.tasks.get? id = some task) :
    ({ s with tasks } : LogoWorker).Bounded env := by
  have hfewer (p : LogoTaskId × LogoTask → Bool) : (tasks.items.filter p).length ≤ (s.tasks.items.filter p).length :=
    Dict.length_filter_le p p [] fun id task htask hp => .inl ⟨task, himp id task htask, hp⟩
  refine ⟨fun id task htask => h.rounds id task (himp id task htask), fun round => ?_, fun round => ?_⟩
  · rw [asking_eq]
    exact le_trans (hfewer _) (asking_eq s round ▸ h.asking round)
  · exact le_trans (hfewer _) (h.batch round)

theorem LogoWorker.Bounded.leave (h : s.Bounded env) (id : LogoTaskId) : (s.leave id).Bounded env :=
  h.of_imp fun _ _ htask => Dict.get?_pop_imp htask

theorem LogoWorker.Bounded.fail (h : s.Bounded env) (id : LogoTaskId) : (s.fail id).Bounded env :=
  ⟨(h.leave id).rounds, (h.leave id).asking, (h.leave id).batch⟩

private theorem length_spawned (s : LogoWorker) (time : TimeNs) :
    (s.spawned env time).length ≤ env.settings.dueBatchSize := by
  unfold LogoWorker.spawned LogoWorker.due getDueLogos
  rw [List.length_map, List.length_map, List.length_take]
  exact Nat.min_le_left _ _

theorem LogoWorker.Bounded.poll (h : s.Bounded env) (time : TimeNs) : (s.startRound env time).Bounded env := by
  have hcases (id : LogoTaskId) (task : LogoTask) (htask : (s.tasks.setMany (s.spawned env time)).get? id = some task) :
      s.tasks.get? id = some task ∨ id.1 = s.round + 1 ∧ task.candidates = none ∧
        id ∈ (s.spawned env time).map Prod.fst := by
    obtain ⟨-, hold⟩ | ⟨new, hnew, hget⟩ := s.tasks.get?_setMany_cases (s.spawned env time) id
    · exact .inl (hold.symm.trans htask)
    · obtain rfl : new = task := Option.some.inj (hget.symm.trans htask)
      obtain ⟨-, htask', hid⟩ := mem_spawned hnew
      exact .inr ⟨by rw [hid], by rw [htask'], List.mem_map_of_mem hnew⟩
  refine ⟨fun id task htask => ?_, fun round => ?_, fun round => ?_⟩
  · show id.1 ≤ s.round + 1
    obtain hold | ⟨hround, -⟩ := hcases id task htask
    · have hle := h.rounds id task hold
      omega
    · omega
  · refine le_trans ?_ (h.asking round)
    rw [asking_eq, asking_eq]
    refine Dict.length_filter_le _ _ [] fun id task htask hp => ?_
    obtain hold | ⟨-, hnone, -⟩ := hcases id task htask
    · exact .inl ⟨task, hold, hp⟩
    · rw [hnone] at hp
      cases hp
  · by_cases hround : round = s.round + 1
    · -- the round has no tasks before
      have hle : ((s.startRound env time).tasksOf round).length ≤
          ((Dict.empty : Dict LogoTaskId LogoTask).items.filter fun _ => true).length +
            ((s.spawned env time).map Prod.fst).length := by
        refine Dict.length_filter_le _ _ _ fun id task htask hp => ?_
        obtain hold | ⟨-, -, hmem⟩ := hcases id task htask
        · have hid : id.1 = round := of_decide_eq_true hp
          have hle := h.rounds id task hold
          omega
        · exact .inr hmem
      refine le_trans hle ?_
      rw [List.length_map]
      show 0 + _ ≤ _
      rw [Nat.zero_add]
      exact length_spawned s time
    · refine le_trans ?_ (h.batch round)
      refine Dict.length_filter_le _ _ [] fun id task htask hp => ?_
      obtain hold | ⟨hnew, -⟩ := hcases id task htask
      · exact .inl ⟨task, hold, hp⟩
      · exact absurd ((of_decide_eq_true hp : id.1 = round).symm.trans hnew) hround

private theorem LogoWorker.Bounded.ask {id : LogoTaskId} {item : DueTokenLogo} {polledAt : Int}
    {candidates : List LogoCandidate} (h : s.Bounded env) (htask : s.tasks.get? id = some ⟨item, polledAt, none⟩)
    (hpermit : s.asking id.1 < env.settings.concurrency) :
    ({ s with tasks := s.tasks.set id ⟨item, polledAt, some candidates⟩ } : LogoWorker).Bounded env := by
  have hcases (k : LogoTaskId) (task : LogoTask)
      (hk : (s.tasks.set id ⟨item, polledAt, some candidates⟩).get? k = some task) :
      k = id ∨ s.tasks.get? k = some task := by
    rw [Dict.get?_set] at hk
    by_cases hid : k = id
    · exact .inl hid
    · rw [if_neg hid] at hk
      exact .inr hk
  refine ⟨fun k task hk => ?_, fun round => ?_, fun round => ?_⟩
  · obtain rfl | hold := hcases k task hk
    · exact h.rounds k _ htask
    · exact h.rounds k task hold
  · rw [asking_eq]
    by_cases hround : round = id.1
    · have hle : ((s.tasks.set id ⟨item, polledAt, some candidates⟩).items.filter fun task =>
          task.2.candidates.isSome && task.1.1 = round).length ≤ s.asking round + [id].length := by
        rw [asking_eq]
        refine Dict.length_filter_le _ _ [id] fun k task hk hp => ?_
        obtain rfl | hold := hcases k task hk
        · exact .inr List.mem_cons_self
        · exact .inl ⟨task, hold, hp⟩
      rw [hround] at hle ⊢
      refine le_trans hle ?_
      rw [List.length_singleton]
      exact hpermit
    · refine le_trans ?_ (h.asking round)
      rw [asking_eq]
      refine Dict.length_filter_le _ _ [] fun k task hk hp => ?_
      obtain rfl | hold := hcases k task hk
      · have hk : k.1 = round := of_decide_eq_true (Bool.and_eq_true_iff.1 hp).2
        exact absurd hk.symm hround
      · exact .inl ⟨task, hold, hp⟩
  · refine le_trans ?_ (h.batch round)
    refine Dict.length_filter_le _ _ [] fun k task hk hp => ?_
    obtain rfl | hold := hcases k task hk
    · exact .inl ⟨_, htask, hp⟩
    · exact .inl ⟨task, hold, hp⟩

theorem LogoWorker.Bounded.step {event : LogoEvent} (h : s.Bounded env) (hstep : s.step env event = some s') :
    s'.Bounded env := by
  cases LogoWorker.step_change hstep with
  | enrolled => exact ⟨h.rounds, h.asking, h.batch⟩
  | refreshed => exact ⟨h.rounds, h.asking, h.batch⟩
  | @polled time _ => exact h.poll time
  | asked htask hpermit _ => exact h.ask htask hpermit
  | @unlisted id _ _ => exact h.fail id
  | acquired => exact ⟨h.rounds, h.asking, h.batch⟩
  | @unacquired id _ _ _ _ _ _ =>
    have hleft := h.leave id
    exact ⟨hleft.rounds, hleft.asking, hleft.batch⟩
  | @recorded id =>
    have hleft := h.leave id
    exact ⟨hleft.rounds, hleft.asking, hleft.batch⟩
  | @unrecorded id _ _ =>
    have hleft := h.leave id
    exact ⟨hleft.rounds, hleft.asking, hleft.batch⟩
  | @cancelled id begun =>
    have hleft := h.leave id
    exact ⟨hleft.rounds, hleft.asking, hleft.batch⟩

private theorem LogoWorker.Current.of_imp {tasks : Dict LogoTaskId LogoTask} (h : s.Current)
    (himp : ∀ id task, tasks.get? id = some task → ∃ task', s.tasks.get? id = some task') :
    ({ s with tasks } : LogoWorker).Current := by
  intro id task htask
  obtain ⟨task', htask'⟩ := himp id task htask
  exact h id task' htask'

theorem LogoWorker.Current.step {event : LogoEvent} (h : s.Current) (hcalm : s.broken = false)
    (hstep : s.step env event = some s') : s'.Current := by
  have hpop (id : LogoTaskId) (k : LogoTaskId) (task : LogoTask) (hk : (s.tasks.pop id).get? k = some task) :
      k.1 = s.round := h k task (Dict.get?_pop_imp hk)
  cases LogoWorker.step_change hstep with
  | enrolled => exact h
  | refreshed => exact h
  | @polled time hover =>
    intro id task htask
    obtain ⟨-, hold⟩ | ⟨new, hnew, -⟩ := s.tasks.get?_setMany_cases (s.spawned env time) id
    · -- no task of the round is left
      have htask := hold.symm.trans htask
      have hnone : s.tasksOf s.round = [] := hover.resolve_left (by rw [hcalm]; exact Bool.false_ne_true)
      have hmem : (id, task) ∈ s.tasksOf s.round :=
        List.mem_filter.2 ⟨Dict.get?_eq_some.1 htask, decide_eq_true (h id task htask)⟩
      rw [hnone] at hmem
      cases hmem
    · obtain ⟨-, -, hid⟩ := mem_spawned hnew
      exact congrArg Prod.fst hid
  | @asked id item polledAt candidates htask _ _ =>
    refine h.of_imp fun k task hk => ?_
    rw [Dict.get?_set] at hk
    by_cases hid : k = id
    · exact ⟨_, hid ▸ htask⟩
    · rw [if_neg hid] at hk
      exact ⟨task, hk⟩
  | @unlisted id _ _ => exact hpop id
  | acquired => exact h
  | @unacquired id => exact hpop id
  | @recorded id => exact hpop id
  | @unrecorded id => exact hpop id
  | @cancelled id _ => exact hpop id

end Tasks

/-! ### Waiting -/

/-- The clock of an attempt is not before 1970. -/
def LogoEvent.Clocked : LogoEvent → Prop
  | .finish _ _ _ time => 0 ≤ nowMs time
  | _ => True

def LogoEvent.isPoll : LogoEvent → Bool
  | .poll _ => true
  | _ => false

def LogoEvent.isCancel : LogoEvent → Bool
  | .cancel .. => true
  | _ => false

/-- The identities whose next attempt is another one. -/
def LogoStore.rescheduled (store store' : LogoStore) : List TokenKey :=
  (store'.logos.items.map Prod.fst).filter fun key => store'.nextAttempt key ≠ store.nextAttempt key

def LogoEvent.fills : LogoEvent → Bool
  | .enroll .. | .refresh .. => true
  | _ => false

/-- How many identities an enrolment or a refresh makes due. -/
def LogoWorker.arrivals (env : LogoWorkerEnv) (s : LogoWorker) (event : LogoEvent) : Nat :=
  if event.fills then (s.step env event).elim 0 fun s' => (s.store.rescheduled s'.store).length else 0

/-- Nothing raises and nothing is cancelled. -/
def LogoWorker.Calm (env : LogoWorkerEnv) (s : LogoWorker) (event : LogoEvent) : Prop :=
  event.isCancel = false ∧ ∀ s' ∈ s.step env event, s'.broken = false

/-- The polls come after the given time, and an attempt ends after the poll that found it. -/
def LogoWorker.InOrder (next : Int) (s : LogoWorker) : LogoEvent → Prop
  | .poll time => next < nowMs time
  | .finish id _ _ time => ∀ task ∈ s.tasks.get? id, task.polledAt ≤ nowMs time
  | _ => True

instance (env : LogoWorkerEnv) (s : LogoWorker) (event : LogoEvent) : Decidable (s.Calm env event) :=
  inferInstanceAs (Decidable (_ ∧ _))

instance (next : Int) (s : LogoWorker) (event : LogoEvent) : Decidable (s.InOrder next event) :=
  match event with
  | .poll _ => inferInstanceAs (Decidable (_ < _))
  | .finish id _ _ time => inferInstanceAs (Decidable (∀ task ∈ s.tasks.get? id, task.polledAt ≤ nowMs time))
  | .enroll _ | .refresh .. | .begin _ | .persist _ | .cancel .. => .isTrue trivial

/-- The identity is not in the batch of the poll. -/
def LogoWorker.Misses (env : LogoWorkerEnv) (x : TokenKey) (s : LogoWorker) : LogoEvent → Prop
  | .poll time => x ∉ (s.due env time).map (·.key)
  | _ => True

section Waiting

variable {env : LogoWorkerEnv} {s s' : LogoWorker} {store store' : LogoStore} {x key : TokenKey} {n : Int}

private theorem Enrolled.nextAttempt (h : Enrolled (store.row? key) (store'.row? key)) :
    store'.nextAttempt key = store.nextAttempt key ∨ store'.nextAttempt key = some 0 := by
  unfold LogoStore.nextAttempt
  obtain hsame | ⟨-, hnew⟩ | ⟨row, -, hdue⟩ := h
  · rw [hsame]
    exact .inl rfl
  · rw [hnew]
    exact .inr rfl
  · rw [hdue]
    exact .inr rfl

/-- A write leaves the other rows and puts its own behind the time of the attempt. -/
private theorem LogoWorker.Sound.nextAttempt {id : LogoTaskId} {write : LogoWrite} (h : s.Sound env)
    (hwrite : s.writes.get? id = some write) (hdone : write.apply env s.store = .ok store') :
    (∀ k, k ≠ id.2 → store'.nextAttempt k = s.store.nextAttempt k) ∧
      ∀ m, store'.nextAttempt id.2 = some m → write.attemptedAt ≤ m := by
  obtain ⟨hitem, hkey, attempts, -, hacquire⟩ := h.writes id write hwrite
  rw [← hkey]
  obtain ⟨honly, row, hrow, ⟨-, hattempted⟩, -⟩ := persistResult_spec hitem hacquire hdone
  unfold LogoStore.nextAttempt
  constructor
  · intro k hk
    rw [honly.row k hk]
  · intro m hm
    rw [hrow] at hm
    have hm : row.nextAttemptAt = some m := hm
    obtain ⟨-, hnone⟩ | ⟨next, hnext, hle⟩ := hattempted
    · rw [hnone] at hm
      cases hm
    · obtain rfl : next = m := Option.some.inj (hnext.symm.trans hm)
      exact hle

/-- No next attempt is before 1970. -/
def LogoStore.Forward (store : LogoStore) : Prop := ∀ key m, store.nextAttempt key = some m → 0 ≤ m

private theorem LogoStore.Forward.of_enrolled (h : store.Forward)
    (hrows : ∀ key, Enrolled (store.row? key) (store'.row? key)) : store'.Forward := by
  intro key m hm
  obtain hsame | hzero := (hrows key).nextAttempt
  · exact h key m (hsame.symm.trans hm)
  · obtain rfl : 0 = m := Option.some.inj (hzero.symm.trans hm)
    exact le_refl 0

/-- Neither is what the threads are to write. -/
structure LogoWorker.Forward (s : LogoWorker) : Prop where
  store : s.store.Forward
  writes : ∀ id write, s.writes.get? id = some write → 0 ≤ write.attemptedAt

/-- What a write leaves. -/
private theorem LogoStore.Forward.record
    {id : LogoTaskId} {write : LogoWrite} (hsound : s.Sound env) (h : s.store.Forward)
    (hwrite : s.writes.get? id = some write) (hlate : 0 ≤ write.attemptedAt)
    (hdone : write.apply env s.store = .ok store) : store.Forward := by
  obtain ⟨hothers, hself⟩ := hsound.nextAttempt hwrite hdone
  intro key m hm
  by_cases hkey : key = id.2
  · rw [hkey] at hm
    exact le_trans hlate (hself m hm)
  · rw [hothers key hkey] at hm
    exact h key m hm

theorem LogoWorker.Forward.step {event : LogoEvent} (hsound : s.Sound env) (h : s.Forward) (hclock : event.Clocked)
    (hstep : s.step env event = some s') : s'.Forward := by
  have hpop (id : LogoTaskId) (k : LogoTaskId) (write : LogoWrite) (hk : (s.writes.pop id).get? k = some write) :
      0 ≤ write.attemptedAt := h.writes k write (Dict.get?_pop_imp hk)
  cases LogoWorker.step_change hstep with
  | enrolled hop hstore => exact ⟨h.store.of_enrolled (step_enrolment hop hstore).2.2, h.writes⟩
  | refreshed hsource => exact ⟨h.store.of_enrolled (refreshSource_rows hsource _ _ _ _ s.store), h.writes⟩
  | polled => exact ⟨h.store, h.writes⟩
  | asked => exact ⟨h.store, h.writes⟩
  | unlisted => exact ⟨h.store, h.writes⟩
  | @acquired id item _ attempts rng time result _ _ =>
    refine ⟨h.store, fun k write hwrite => ?_⟩
    have hwrite : (s.writes.set id ⟨item, result, nowMs time, rng⟩).get? k = some write := hwrite
    rw [Dict.get?_set] at hwrite
    by_cases hid : k = id
    · rw [if_pos hid] at hwrite
      cases hwrite
      exact hclock
    · rw [if_neg hid] at hwrite
      exact h.writes k write hwrite
  | unacquired => exact ⟨h.store, h.writes⟩
  | @recorded id write store hwrite hdone =>
    exact ⟨h.store.record hsound hwrite (h.writes id write hwrite) hdone, hpop id⟩
  | @unrecorded id => exact ⟨h.store, hpop id⟩
  | @cancelled id begun =>
    refine ⟨h.store, fun k write hwrite => ?_⟩
    cases begun with
    | true => exact h.writes k write hwrite
    | false => exact hpop id k write hwrite

/-- What holds while an identity waits for its attempt since the given time. -/
structure LogoWorker.Waits (env : LogoWorkerEnv) (x : TokenKey) (n : Int) (s : LogoWorker) : Prop where
  sound : s.Sound env
  forward : s.store.Forward
  next : ∃ m, s.store.nextAttempt x = some m ∧ m ≤ n
  calm : s.broken = false
  current : s.Current
  /-- the tasks are of identities ahead of it, and were found after the time -/
  tasks : ∀ id task, s.tasks.get? id = some task → id.2 ∈ s.store.ahead n x ∧ n < task.polledAt
  /-- the threads write for them, after they were found -/
  writes : ∀ id write, s.writes.get? id = some write →
    ∃ task, s.tasks.get? id = some task ∧ task.polledAt ≤ write.attemptedAt

/-- What is ahead and has no task. -/
def LogoWorker.waiting (x : TokenKey) (n : Int) (s : LogoWorker) : Nat := (s.store.ahead n x).length - s.tasks.size

/-- What is ahead stays ahead when it is made due. -/
private theorem LogoStore.mem_ahead_of_enrolled (hforward : store.Forward)
    (hrow : Enrolled (store.row? key) (store'.row? key)) (h : key ∈ store.ahead n x) : key ∈ store'.ahead n x := by
  obtain ⟨hne, m, hm, hbefore⟩ := LogoStore.mem_ahead.1 h
  obtain hsame | hzero := hrow.nextAttempt
  · exact LogoStore.mem_ahead.2 ⟨hne, m, hsame.trans hm, hbefore⟩
  · have hle : dueBefore (0, key) (m, key) = true := dueBefore_of_le key (hforward key m hm)
    exact LogoStore.mem_ahead.2 ⟨hne, 0, hzero, dueBefore_trans _ _ _ hle hbefore⟩

/-- What comes to be ahead was rescheduled. -/
private theorem LogoStore.ahead_le_of_rescheduled (store store' : LogoStore) (n : Int) (x : TokenKey) :
    (store'.ahead n x).length ≤ (store.ahead n x).length + (store.rescheduled store').length := by
  have hsub : store'.ahead n x ⊆ store.ahead n x ++ store.rescheduled store' := by
    intro key hkey
    obtain ⟨hne, m, hm, hbefore⟩ := LogoStore.mem_ahead.1 hkey
    by_cases hsame : store'.nextAttempt key = store.nextAttempt key
    · exact List.mem_append_left _ (LogoStore.mem_ahead.2 ⟨hne, m, hsame.symm.trans hm, hbefore⟩)
    · obtain ⟨row, hrow, -⟩ := Option.bind_eq_some_iff.1 hm
      obtain ⟨stored, hstored, -⟩ := Option.map_eq_some_iff.1 hrow
      have hmem : key ∈ store'.logos.items.map Prod.fst := Dict.mem_keys.2 ⟨stored, hstored⟩
      exact List.mem_append_right _ (List.mem_filter.2 ⟨hmem, decide_eq_true hsame⟩)
  have hle := (List.subperm_of_subset (store'.nodup_ahead n x) hsub).length_le
  rwa [List.length_append] at hle

/-- An enrolment or a refresh. -/
private theorem LogoWorker.Waits.withStore (h : s.Waits env x n) (hsound : ({ s with store } : LogoWorker).Sound env)
    (hrows : ∀ key, Enrolled (s.store.row? key) (store.row? key)) :
    ({ s with store } : LogoWorker).Waits env x n ∧
      ({ s with store } : LogoWorker).waiting x n ≤ s.waiting x n + (s.store.rescheduled store).length := by
  obtain ⟨m, hm, hle⟩ := h.next
  constructor
  · refine ⟨hsound, h.forward.of_enrolled hrows, ?_, h.calm, h.current, fun id task htask => ?_, h.writes⟩
    · obtain hsame | hzero := (hrows x).nextAttempt
      · exact ⟨m, hsame.trans hm, hle⟩
      · exact ⟨0, hzero, le_trans (h.forward x m hm) hle⟩
    · obtain ⟨hahead, hpolled⟩ := h.tasks id task htask
      exact ⟨LogoStore.mem_ahead_of_enrolled h.forward (hrows id.2) hahead, hpolled⟩
  · have hahead := LogoStore.ahead_le_of_rescheduled s.store store n x
    show (store.ahead n x).length - s.tasks.size ≤ (s.store.ahead n x).length - s.tasks.size + _
    omega

/-- A task that raises ends the round. -/
private theorem LogoWorker.Current.fail_ne {id : LogoTaskId} {task : LogoTask} (h : s.Current)
    (htask : s.tasks.get? id = some task) : (s.fail id).broken ≠ false := by
  show (s.broken || (s.tasks.get? id).isSome && decide (id.1 = s.round)) ≠ false
  rw [htask, h id task htask]
  simp

/-- Where nothing raised, a round begins without tasks. -/
private theorem LogoWorker.Current.size_eq_zero (h : s.Current) (hcalm : s.broken = false)
    (hover : s.broken ∨ s.tasksOf s.round = []) : s.tasks.items = [] := by
  have hnone := hover.resolve_left (by rw [hcalm]; exact Bool.false_ne_true)
  refine List.eq_nil_iff_forall_not_mem.2 fun task htask => ?_
  have hmem : task ∈ s.tasksOf s.round :=
    List.mem_filter.2 ⟨htask, decide_eq_true (h task.1 task.2 (Dict.get?_eq_some.2 htask))⟩
  rw [hnone] at hmem
  cases hmem

/-- A poll takes a whole batch of what is ahead. -/
theorem LogoWorker.Waits.poll {time : TimeNs} (h : s.Waits env x n) (hsound : (s.startRound env time).Sound env)
    (hcurrent : (s.startRound env time).Current) (hover : s.broken ∨ s.tasksOf s.round = []) (hlate : n < nowMs time)
    (hmissed : x ∉ (s.due env time).map (·.key)) :
    (s.startRound env time).Waits env x n ∧
      (s.startRound env time).waiting x n + env.settings.dueBatchSize ≤ s.waiting x n := by
  obtain ⟨m, hm, hle⟩ := h.next
  obtain ⟨hfull, hahead⟩ := getDueLogos_ahead hm hle (by omega) hmissed
  have hnodup := getDueLogos_nodup s.store (nowMs time) env.settings.dueBatchSize
  have hempty := h.current.size_eq_zero h.calm hover
  have hget (id : LogoTaskId) : s.tasks.get? id = none := by
    unfold Dict.get?
    rw [hempty]
    rfl
  constructor
  · refine ⟨hsound, h.forward, h.next, rfl, hcurrent, fun id task htask => ?_, fun id write hwrite => ?_⟩
    · obtain ⟨-, hold⟩ | ⟨new, hnew, hsome⟩ := s.tasks.get?_setMany_cases (s.spawned env time) id
      · have hnone := (hold.trans (hget id)).symm.trans htask
        cases hnone
      · obtain rfl : new = task := Option.some.inj (hsome.symm.trans htask)
        obtain ⟨hdue, htask', hid⟩ := mem_spawned hnew
        constructor
        · rw [hid]
          exact hahead new.item.key (List.mem_map_of_mem hdue)
        · rw [htask']
          exact hlate
    · obtain ⟨task, htask, -⟩ := h.writes id write hwrite
      have hnone := (hget id).symm.trans htask
      cases hnone
  · have hkeys : ((s.spawned env time).map Prod.fst).Nodup := by
      unfold spawned
      rw [List.map_map]
      refine List.Nodup.of_map Prod.snd ?_
      rw [List.map_map]
      exact hnodup
    have hsize : (s.tasks.setMany (s.spawned env time)).size = env.settings.dueBatchSize := by
      rw [Dict.size_setMany hkeys fun p _ => hget p.1]
      unfold Dict.size spawned
      rw [hempty, List.length_map]
      exact (Nat.zero_add _).trans hfull
    have hbatch : env.settings.dueBatchSize ≤ (s.store.ahead n x).length := by
      have hsub := (List.subperm_of_subset hnodup hahead).length_le
      rw [List.length_map] at hsub
      exact hfull ▸ hsub
    have hzero : s.tasks.size = 0 := congrArg List.length hempty
    show (s.store.ahead n x).length - (s.tasks.setMany (s.spawned env time)).size + _ ≤
      (s.store.ahead n x).length - s.tasks.size
    omega

/-- A recorded attempt takes its identity from those ahead. -/
private theorem LogoWorker.Waits.record {id : LogoTaskId} {write : LogoWrite} (h : s.Waits env x n)
    (hsound : (({ s with store, writes := s.writes.pop id } : LogoWorker).leave id).Sound env)
    (hwrite : s.writes.get? id = some write) (hdone : write.apply env s.store = .ok store) :
    (({ s with store, writes := s.writes.pop id } : LogoWorker).leave id).Waits env x n ∧
      (({ s with store, writes := s.writes.pop id } : LogoWorker).leave id).waiting x n ≤ s.waiting x n := by
  obtain ⟨task, htask, horder⟩ := h.writes id write hwrite
  obtain ⟨hahead, hpolled⟩ := h.tasks id task htask
  obtain ⟨hothers, hself⟩ := h.sound.nextAttempt hwrite hdone
  obtain ⟨m, hm, hle⟩ := h.next
  have hx : x ≠ id.2 := (LogoStore.mem_ahead.1 hahead).1.symm
  have hzero : 0 ≤ n := le_trans (h.forward x m hm) hle
  have hlate : n < write.attemptedAt := by omega
  constructor
  · refine ⟨hsound, h.forward.record h.sound hwrite (by omega) hdone, ⟨m, (hothers x hx).trans hm, hle⟩, h.calm, ?_,
      fun k task hk => ?_, fun k write hk => ?_⟩
    · intro k task hk
      exact h.current k task (Dict.get?_pop_imp hk)
    · have hk : (s.tasks.pop id).get? k = some task := hk
      rw [Dict.get?_pop] at hk
      split at hk
      · cases hk
      · rename_i hne
        obtain ⟨hkahead, hkpolled⟩ := h.tasks k task hk
        -- the tasks are of one round, so the other identity is another one
        have hkey' : k.2 ≠ id.2 := fun heq =>
          hne (Prod.ext ((h.current k task hk).trans (h.current id _ htask).symm) heq)
        obtain ⟨hkx, m', hm', hbefore⟩ := LogoStore.mem_ahead.1 hkahead
        exact ⟨LogoStore.mem_ahead.2 ⟨hkx, m', (hothers k.2 hkey').trans hm', hbefore⟩, hkpolled⟩
    · have hk : (s.writes.pop id).get? k = some write := hk
      rw [Dict.get?_pop] at hk
      split at hk
      · cases hk
      · rename_i hne
        obtain ⟨task, htask, horder⟩ := h.writes k write hk
        refine ⟨task, ?_, horder⟩
        show (s.tasks.pop id).get? k = some task
        rw [Dict.get?_pop, if_neg hne]
        exact htask
  · have hgone : id.2 ∉ store.ahead n x := by
      intro hmem
      obtain ⟨-, m', hm', hbefore⟩ := LogoStore.mem_ahead.1 hmem
      have hwritten := hself m' hm'
      have hearly : m' ≤ n := le_of_dueBefore hbefore
      omega
    have hsub : id.2 :: store.ahead n x ⊆ s.store.ahead n x := by
      intro key hkeymem
      obtain rfl | hmem := List.mem_cons.1 hkeymem
      · exact hahead
      · obtain ⟨hkx, m', hm', hbefore⟩ := LogoStore.mem_ahead.1 hmem
        have hne : key ≠ id.2 := fun heq => hgone (heq ▸ hmem)
        exact LogoStore.mem_ahead.2 ⟨hkx, m', (hothers key hne).symm.trans hm', hbefore⟩
    have hfewer := (List.subperm_of_subset (List.nodup_cons.2 ⟨hgone, store.nodup_ahead n x⟩) hsub).length_le
    rw [List.length_cons] at hfewer
    have hsize := s.tasks.size_le_size_pop id
    show (store.ahead n x).length - (s.tasks.pop id).size ≤ (s.store.ahead n x).length - s.tasks.size
    omega

/-- A poll costs a batch. -/
def LogoEvent.cost (env : LogoWorkerEnv) (event : LogoEvent) : Nat :=
  if event.isPoll then env.settings.dueBatchSize else 0

private theorem arrivals_of_fills
    {event : LogoEvent} (hfills : event.fills = true) (hstep : s.step env event = some s') :
    s.arrivals env event = (s.store.rescheduled s'.store).length := by
  unfold LogoWorker.arrivals
  rw [if_pos hfills, hstep, Option.elim_some]

/-- A step while the identity waits. -/
theorem LogoWorker.Waits.step (hlaw : env.eth.Lawful) {event : LogoEvent} (hcanonical : event.Canonical env.eth)
    (hcalm : s.Calm env event) (horder : s.InOrder n event) (hmissed : s.Misses env x event) (h : s.Waits env x n)
    (hstep : s.step env event = some s') :
    s'.Waits env x n ∧ s'.waiting x n + event.cost env ≤ s.waiting x n + s.arrivals env event := by
  have hsound := h.sound.step hlaw hcanonical hstep
  have hcurrent := h.current.step h.calm hstep
  have hbroken := hcalm.2 s' hstep
  cases LogoWorker.step_change hstep with
  | enrolled hop hstore =>
    rw [arrivals_of_fills rfl hstep]
    exact h.withStore hsound (step_enrolment hop hstore).2.2
  | refreshed hsource =>
    rw [arrivals_of_fills rfl hstep]
    exact h.withStore hsound (refreshSource_rows hsource _ _ _ _ s.store)
  | polled hover => exact h.poll hsound hcurrent hover horder hmissed
  | @asked id item polledAt candidates htask _ _ =>
    have hsize : (s.tasks.set id ⟨item, polledAt, some candidates⟩).size = s.tasks.size :=
      Dict.size_set_of_some htask _
    refine ⟨⟨hsound, h.forward, h.next, h.calm, hcurrent, fun k task hk => ?_, fun k write hk => ?_⟩, ?_⟩
    · have hk : (s.tasks.set id ⟨item, polledAt, some candidates⟩).get? k = some task := hk
      rw [Dict.get?_set] at hk
      by_cases hid : k = id
      · rw [if_pos hid] at hk
        cases hk
        obtain ⟨hahead, hpolled⟩ := h.tasks id _ htask
        exact ⟨hid ▸ hahead, hpolled⟩
      · rw [if_neg hid] at hk
        exact h.tasks k task hk
    · obtain ⟨task, hfound, horder⟩ := h.writes k write hk
      show ∃ task, (s.tasks.set id ⟨item, polledAt, some candidates⟩).get? k = some task ∧ _
      rw [Dict.get?_set]
      by_cases hid : k = id
      · rw [if_pos hid]
        rw [hid, htask] at hfound
        obtain rfl := Option.some.inj hfound
        exact ⟨_, rfl, horder⟩
      · rw [if_neg hid]
        exact ⟨task, hfound, horder⟩
    · show (s.store.ahead n x).length - (s.tasks.set id ⟨item, polledAt, some candidates⟩).size + 0 ≤
        (s.store.ahead n x).length - s.tasks.size + 0
      rw [hsize]
  | unlisted htask => exact absurd hbroken (h.current.fail_ne htask)
  | @acquired id item polledAt attempts rng time result htask _ =>
    refine ⟨⟨hsound, h.forward, h.next, h.calm, hcurrent, h.tasks, fun k write hk => ?_⟩, le_refl _⟩
    have hk : (s.writes.set id ⟨item, result, nowMs time, rng⟩).get? k = some write := hk
    rw [Dict.get?_set] at hk
    by_cases hid : k = id
    · rw [if_pos hid] at hk
      cases hk
      exact ⟨_, hid ▸ htask, horder _ htask⟩
    · rw [if_neg hid] at hk
      exact h.writes k write hk
  | unacquired htask => exact absurd hbroken (h.current.fail_ne htask)
  | recorded hwrite hdone => exact h.record hsound hwrite hdone
  | @unrecorded id write hwrite =>
    obtain ⟨task, htask, -⟩ := h.writes id write hwrite
    exact absurd hbroken (h.current.fail_ne htask)
  | cancelled => exact absurd hcalm.1.symm Bool.false_ne_true

end Waiting

/-! ### Five chains -/

namespace LogoExample

/-- A run that is calm and in order, and how many identities are made due in it. -/
inductive Follows : LogoWorker → List LogoEvent → LogoWorker → Nat → Prop
  | nil (s : LogoWorker) : Follows s [] s 0
  | cons {s s₁ s' : LogoWorker} {event : LogoEvent} {events : List LogoEvent} {arrived : Nat}
      (step : s.step worker event = some s₁) (calm : event.isCancel = false ∧ s₁.broken = false)
      (order : s.InOrder 0 event) (rest : Follows s₁ events s' arrived) :
      Follows s (event :: events) s' (s.arrivals worker event + arrived)

section Follows

variable {s s₁ s' : LogoWorker} {events events' : List LogoEvent} {arrived arrived' : Nat}

private theorem Follows.append (h : Follows s events s₁ arrived) (h' : Follows s₁ events' s' arrived') :
    Follows s (events ++ events') s' (arrived + arrived') := by
  induction h with
  | nil => rwa [Nat.zero_add]
  | cons hstep hcalm horder _ ih =>
    rw [Nat.add_assoc]
    exact .cons hstep hcalm horder (ih h')

/-- A step that makes nothing due. -/
private theorem Follows.cons_still
    {event : LogoEvent} (hstep : s.step worker event = some s₁) (hstill : event.fills = false)
    (hcalm : event.isCancel = false ∧ s₁.broken = false) (horder : s.InOrder 0 event)
    (h : Follows s₁ events s' arrived) : Follows s (event :: events) s' arrived := by
  have hzero : s.arrivals worker event = 0 := by
    unfold LogoWorker.arrivals
    rw [hstill]
    rfl
  have hcons := Follows.cons hstep hcalm horder h
  rwa [hzero, Nat.zero_add] at hcons

theorem Follows.run (h : Follows s events s' arrived) : PyLib.run (LogoWorker.step worker) s events = some s' := by
  induction h with
  | nil => rfl
  | cons hstep _ _ _ ih => exact run_cons.2 ⟨_, hstep, ih⟩

private theorem Follows.calm (h : Follows s events s' arrived) :
    Along (LogoWorker.step worker) (LogoWorker.Calm worker) s events := by
  induction h with
  | nil => trivial
  | cons hstep hcalm _ _ ih =>
    refine ⟨⟨hcalm.1, fun s' hs' => ?_⟩, fun s' hs' => ?_⟩
    · rw [hstep] at hs'
      exact Option.some.inj hs' ▸ hcalm.2
    · rw [hstep] at hs'
      exact Option.some.inj hs' ▸ ih

theorem Follows.order (h : Follows s events s' arrived) :
    Along (LogoWorker.step worker) (LogoWorker.InOrder 0) s events := by
  induction h with
  | nil => trivial
  | cons hstep _ horder _ ih =>
    refine ⟨horder, fun s' hs' => ?_⟩
    rw [hstep] at hs'
    exact Option.some.inj hs' ▸ ih

private theorem Follows.total (h : Follows s events s' arrived) :
    total (LogoWorker.step worker) (LogoWorker.arrivals worker) s events = arrived := by
  induction h with
  | nil => rfl
  | cons hstep _ _ _ ih =>
    unfold PyLib.total
    rw [hstep, Option.elim_some, ih]

/-- A poll of rows that are in order. -/
theorem Follows.poll {rows : List ((Int × TokenKey) × Int)} (hended : s.tasksOf s.round = [])
    (hrows : s.store.dueRows (nowMs time) = rows) (hsorted : rows.Pairwise fun a b => dueBefore a.1 b.1 = true) :
    Follows s [.poll time]
      { s with
        tasks := s.tasks.setMany ((rows.take 2).map fun row =>
          ((s.round + 1, row.1.2), ⟨⟨row.1.2.1, row.1.2.2, row.2⟩, nowMs time, none⟩))
        round := s.round + 1
        broken := false } 0 := by
  have hdue : s.due worker time = (rows.take 2).map fun row => ⟨row.1.2.1, row.1.2.2, row.2⟩ := by
    unfold LogoWorker.due
    rw [getDueLogos_of_pairwise (hrows.symm ▸ hsorted), hrows]
    rfl
  refine .cons_still ?_ rfl ⟨rfl, rfl⟩ ?_ (.nil _)
  · simp only [LogoWorker.step, hended, or_true, if_true, LogoWorker.startRound, LogoWorker.spawned, hdue, List.map_map]
    rfl
  · show 0 < nowMs time
    decide

end Follows

/-- Two tasks have their permits, their candidates answer, the second ones first, and two threads write. -/
def attempts (round : Nat) (a b : Int) : List LogoEvent :=
  [.begin (nativeTask round a), .begin (nativeTask round b), .finish (nativeTask round b) (answered b) rng time,
    .finish (nativeTask round a) (answered a) rng time, .persist (nativeTask round a), .persist (nativeTask round b)]

def recorded (chainId : Int) (store : LogoStore) : LogoStore := (recordNative chainId store).toOption.getD store

private theorem recorded_eq {chainId : Int} {store : LogoStore} (h : (recordNative chainId store).toOption.isSome) :
    recordNative chainId store = .ok (recorded chainId store) := by
  unfold recorded
  cases hrecord : recordNative chainId store with
  | ok store => rfl
  | error exc =>
    rw [hrecord] at h
    cases h

/-- The tasks of two chains can be attempted. -/
def Ready (s : LogoWorker) (round : Nat) (a b : Int) : Prop :=
  (s.store.entries.items = [] ∧ s.writes.items.isEmpty) ∧
    (s.tasks.get? (nativeTask round a) = some ⟨⟨a, nativeTokenAlias, 0⟩, nowMs time, none⟩ ∧
      s.tasks.get? (nativeTask round b) = some ⟨⟨b, nativeTokenAlias, 0⟩, nowMs time, none⟩) ∧
    (s.asking round < worker.settings.concurrency ∧ (asks s round a).asking round < worker.settings.concurrency) ∧
      (recordNative a s.store).toOption.isSome ∧ (recordNative b (recorded a s.store)).toOption.isSome

instance (s : LogoWorker) (round : Nat) (a b : Int) : Decidable (Ready s round a b) :=
  inferInstanceAs (Decidable (_ ∧ _))

def attempted (s : LogoWorker) (round : Nat) (a b : Int) : LogoWorker :=
  let attempting := writes (writes (asks (asks s round a) round b) round b) round a
  written (written attempting round a (recorded a s.store)) round b (recorded b (recorded a s.store))

private theorem follows_attempts
    {s : LogoWorker} {round : Nat} {a b : Int} (ha : 0 < a ∧ a < 2 ^ 63) (hb : 0 < b ∧ b < 2 ^ 63)
    (hab : a ≠ b) (hcalm : s.broken = false) (h : Ready s round a b) :
    Follows s (attempts round a b) (attempted s round a b) 0 := by
  obtain ⟨⟨hentries, hwrites⟩, ⟨htask, htask'⟩, ⟨hpermit, hpermit'⟩, hstore, hstore'⟩ := h
  have hne : nativeTask round b ≠ nativeTask round a := by
    intro h
    exact hab (congrArg (fun id => id.2.1) h).symm
  have hnone (id : LogoTaskId) : s.writes.get? id = none := by
    unfold Dict.get?
    rw [List.isEmpty_iff.1 hwrites]
    rfl
  have hfirst : (asks (asks s round a) round b).tasks.get? (nativeTask round a) =
      some ⟨⟨a, nativeTokenAlias, 0⟩, nowMs time, some ((answered a).map (·.candidate))⟩ := by
    unfold asks
    rw [Dict.get?_set, if_neg hne.symm, Dict.get?_set_self]
  have hsecond : (asks (asks s round a) round b).tasks.get? (nativeTask round b) =
      some ⟨⟨b, nativeTokenAlias, 0⟩, nowMs time, some ((answered b).map (·.candidate))⟩ := Dict.get?_set_self _ _ _
  have horder {id : LogoTaskId} {s : LogoWorker} {attempts : List Attempt} {item : DueTokenLogo}
      {candidates : Option (List LogoCandidate)} (h : s.tasks.get? id = some ⟨item, nowMs time, candidates⟩) :
      s.InOrder 0 (.finish id attempts rng time) := by
    intro task htask
    obtain rfl := Option.some.inj (h.symm.trans htask)
    exact le_refl _
  refine .cons_still (begin_native ha.1 ha.2 hentries htask hpermit) rfl ⟨rfl, hcalm⟩ trivial ?_
  refine .cons_still (begin_native hb.1 hb.2 hentries ?_ hpermit') rfl ⟨rfl, hcalm⟩ trivial ?_
  · unfold asks
    rw [Dict.get?_set, if_neg hne]
    exact htask'
  refine .cons_still (finish_native hb.1 hb.2 hsecond (hnone _)) rfl ⟨rfl, hcalm⟩ (horder hsecond) ?_
  refine .cons_still (finish_native ha.1 ha.2 hfirst ?_) rfl ⟨rfl, hcalm⟩ (horder hfirst) ?_
  · unfold writes
    rw [Dict.get?_set, if_neg hne.symm]
    exact hnone _
  refine .cons_still (persist_native (Dict.get?_set_self _ _ _) (recorded_eq hstore)) rfl ⟨rfl, hcalm⟩ trivial ?_
  refine .cons_still (persist_native ?_ (recorded_eq hstore')) rfl ⟨rfl, hcalm⟩ trivial (.nil _)
  unfold written writes LogoWorker.leave
  rw [Dict.get?_pop, if_neg hne, Dict.get?_set, if_neg hne, Dict.get?_set_self]

/-- The native tokens of five chains are enrolled. -/
def enrolments : List LogoEvent := [1, 10, 137, 8453, 42161].map fun chainId =>
  .enroll (.enrollObserved chainId [nativeTokenAlias])

private theorem enrolments_run : (run (LogoWorker.step worker) .new enrolments).isSome := by decide +kernel

/-- The service after the enrolments. -/
def idle : LogoWorker := (run (LogoWorker.step worker) .new enrolments).get enrolments_run

private theorem idle_run :
    run (LogoWorker.step worker) .new enrolments = some idle := (Option.some_get enrolments_run).symm

/-- Rows that are due since their enrolment. -/
def enrolledRows (chainIds : List Int) : List ((Int × TokenKey) × Int) :=
  chainIds.map fun chainId => ((0, (chainId, nativeTokenAlias)), 0)

/-- The state after a poll. -/
def polledRows (s : LogoWorker) (chainIds : List Int) : LogoWorker :=
  { s with
    tasks := s.tasks.setMany (((enrolledRows chainIds).take 2).map fun row =>
      ((s.round + 1, row.1.2), ⟨⟨row.1.2.1, row.1.2.2, row.2⟩, nowMs time, none⟩))
    round := s.round + 1
    broken := false }

def firstRound : LogoWorker := attempted (polledRows idle [1, 10, 137, 8453, 42161]) 1 1 10

private theorem firstRound_follows : Follows idle (.poll time :: attempts 1 1 10) firstRound 0 := by
  have hrows : idle.tasksOf idle.round = [] ∧
      idle.store.dueRows (nowMs time) = enrolledRows [1, 10, 137, 8453, 42161] := by decide +kernel
  have hpoll : Follows idle [.poll time] (polledRows idle [1, 10, 137, 8453, 42161]) 0 :=
    .poll hrows.1 hrows.2 (by decide)
  have hready : Ready (polledRows idle [1, 10, 137, 8453, 42161]) 1 1 10 := by decide +kernel
  exact hpoll.append (follows_attempts (by decide) (by decide) (by decide) rfl hready)

/-- The native token of a sixth chain is enrolled. -/
def arrival : LogoEvent := .enroll (.enrollObserved 43114 [nativeTokenAlias])

private theorem arrival_step : (firstRound.step worker arrival).isSome := by decide +kernel

def arrived : LogoWorker := (firstRound.step worker arrival).get arrival_step

def secondRound : LogoWorker := attempted (polledRows arrived [137, 8453, 42161, 43114]) 2 137 8453

private theorem secondRound_follows : Follows arrived (.poll time :: attempts 2 137 8453) secondRound 0 := by
  have hrows : arrived.tasksOf arrived.round = [] ∧
      arrived.store.dueRows (nowMs time) = enrolledRows [137, 8453, 42161, 43114] := by decide +kernel
  have hpoll : Follows arrived [.poll time] (polledRows arrived [137, 8453, 42161, 43114]) 0 :=
    .poll hrows.1 hrows.2 (by decide)
  have hready : Ready (polledRows arrived [137, 8453, 42161, 43114]) 2 137 8453 := by decide +kernel
  exact hpoll.append (follows_attempts (by decide) (by decide) (by decide) rfl hready)

/-- Two rounds, between which a sixth chain comes in, and the next poll. -/
def rounds : List LogoEvent :=
  (.poll time :: attempts 1 1 10) ++ (arrival :: ((.poll time :: attempts 2 137 8453) ++ [.poll time]))

private theorem rounds_follows : Follows idle rounds (polledRows secondRound [42161, 43114]) 1 := by
  have hrows : secondRound.tasksOf secondRound.round = [] ∧
      secondRound.store.dueRows (nowMs time) = enrolledRows [42161, 43114] := by decide +kernel
  have hpoll : Follows secondRound [.poll time] (polledRows secondRound [42161, 43114]) 0 :=
    .poll hrows.1 hrows.2 (by decide)
  have harrived : firstRound.arrivals worker arrival = 1 := by decide +kernel
  have hrest := Follows.cons (Option.some_get arrival_step).symm ⟨rfl, by decide +kernel⟩ trivial
    (secondRound_follows.append hpoll)
  rw [harrived] at hrest
  exact firstRound_follows.append hrest

private theorem rounds_canonical : ∀ event ∈ enrolments ++ rounds, event.Canonical worker.eth := by
  have hnative (chainId : Int) : (LogoOp.enrollObserved chainId [nativeTokenAlias]).Canonical worker.eth := by
    intro address haddress
    obtain rfl : address = nativeTokenAlias := List.mem_singleton.1 haddress
    exact ⟨nativeTokenAlias, normalized_native Example.eth⟩
  intro event hevent
  rcases List.mem_append.1 hevent with h | h
  · obtain ⟨chainId, -, rfl⟩ := List.mem_map.1 h
    exact hnative chainId
  · simp only [rounds, attempts, List.cons_append, List.nil_append, List.mem_cons, List.not_mem_nil, or_false] at h
    rcases h with rfl | rfl | rfl | rfl | rfl | rfl | rfl | rfl | rfl | rfl | rfl | rfl | rfl | rfl | rfl | rfl
    all_goals first | trivial | exact hnative 43114

end LogoExample

/-! ### The bounds -/

/-- In every interleaving a round asks for no more identities at once than it has permits, and has no more tasks than a
batch, and no poll finds an identity twice; and as long as nothing raised, no identity is asked for twice at once, also
not by an earlier round. -/
theorem logo_tasks_bounded (env : LogoWorkerEnv) (events : List LogoEvent) :
    Always (LogoWorker.step env)
        (fun s => (∀ round, s.asking round ≤ env.settings.concurrency ∧
            (s.tasksOf round).length ≤ env.settings.dueBatchSize) ∧
          ∀ time, ((s.due env time).map (·.key)).Nodup) .new events ∧
      (Always (LogoWorker.step env) (fun s => s.broken = false) .new events →
        Always (LogoWorker.step env)
          (fun s => ∀ id id' task task', s.tasks.get? id = some task → s.tasks.get? id' = some task' →
            id.2 = id'.2 → id = id') .new events) := by
  constructor
  · intro pre hpre s hrun
    have hnew : LogoWorker.new.Bounded env := by
      refine ⟨fun id task htask => ?_, fun round => Nat.zero_le _, fun round => Nat.zero_le _⟩
      cases htask
    have hbounded := run_invariant (fun s event s' hs hstep => LogoWorker.Bounded.step hs hstep) hnew hrun
    refine ⟨fun round => ⟨hbounded.asking round, hbounded.batch round⟩, fun time => ?_⟩
    exact getDueLogos_nodup s.store (nowMs time) env.settings.dueBatchSize
  · intro hcalm pre hpre s hrun id id' task task' htask htask' hsame
    have hcalm' : Always (LogoWorker.step env) (fun s => s.broken = false) .new pre :=
      fun first hfirst => hcalm first (hfirst.trans hpre)
    have hnew : LogoWorker.new.Current := by
      intro id task htask
      cases htask
    have hcurrent : s.Current :=
      run_invariant_along (fun s event s' hs hs' hstep => LogoWorker.Current.step hs hs' hstep) hnew hcalm'.along hrun
    exact Prod.ext ((hcurrent id task htask).trans (hcurrent id' task' htask').symm) hsame

open LogoExample in
/-- In the two rounds nothing raises. -/
theorem logo_tasks_bounded_rounds :
    Always (LogoWorker.step worker)
      (fun s => ∀ id id' task task', s.tasks.get? id = some task → s.tasks.get? id' = some task' → id.2 = id'.2 →
        id = id') .new (enrolments ++ rounds) := by
  have henrolled : Along (LogoWorker.step worker) (LogoWorker.Calm worker) .new enrolments := by decide +kernel
  have hcalm : Along (LogoWorker.step worker) (LogoWorker.Calm worker) .new (enrolments ++ rounds) := by
    refine henrolled.append fun s hs => ?_
    obtain rfl : idle = s := Option.some.inj (idle_run.symm.trans hs)
    exact rounds_follows.calm
  exact (logo_tasks_bounded worker (enrolments ++ rounds)).2
    (hcalm.always (fun _ _ s' _ h hs' => h.2 s' hs') rfl)

/-- No identity starves.  Between two rounds, when no task and no thread is at work, let an identity be scheduled.  In
every interleaving from there in which nothing raises or is cancelled and the clock goes forward, a poll has the
identity in its batch before the polls have taken more than was ahead of it and was made due meanwhile. -/
theorem logo_queue_fair (env : LogoWorkerEnv) (hlaw : env.eth.Lawful) {before events : List LogoEvent}
    (hcanonical : ∀ event ∈ before ++ events, event.Canonical env.eth) (hclock : ∀ event ∈ before, event.Clocked)
    {s s' : LogoWorker} (hbefore : run (LogoWorker.step env) .new before = some s)
    (hidle : s.tasks.items = [] ∧ s.writes.items = []) (hended : s.broken = false) {x : TokenKey} {n : Int}
    (hnext : s.store.nextAttempt x = some n)
    (hrun : run (LogoWorker.step env) s events = some s')
    (hcalm : Along (LogoWorker.step env) (LogoWorker.Calm env) s events)
    (horder : Along (LogoWorker.step env) (LogoWorker.InOrder n) s events)
    (hmany : (s.store.ahead n x).length + total (LogoWorker.step env) (LogoWorker.arrivals env) s events <
      env.settings.dueBatchSize * events.countP LogoEvent.isPoll) :
    ∃ pre time, pre ++ [.poll time] <+: events ∧ ∃ s₁, run (LogoWorker.step env) s pre = some s₁ ∧
      x ∈ (s₁.due env time).map (·.key) := by
  by_contra hnever
  have hmissed : Along (LogoWorker.step env) (LogoWorker.Misses env x) s events := by
    by_contra hnot
    obtain ⟨pre, event, hpre, s₁, hs₁, hbatch⟩ := exists_of_not_along hnot
    cases event with
    | poll time => exact hnever ⟨pre, time, hpre, s₁, hs₁, not_not.1 hbatch⟩
    | enroll => exact hbatch trivial
    | refresh => exact hbatch trivial
    | begin => exact hbatch trivial
    | finish => exact hbatch trivial
    | persist => exact hbatch trivial
    | cancel => exact hbatch trivial
  have hcanonical' : ∀ event ∈ events, event.Canonical env.eth := fun event h =>
    hcanonical event (List.mem_append_right before h)
  have hstart : s.Sound env ∧ s.Forward := by
    refine run_invariant_along (I := fun s => s.Sound env ∧ s.Forward)
      (p := fun _ event => event.Canonical env.eth ∧ event.Clocked) ?_ ?_ ?_ hbefore
    · intro s event s' hs hevent hstep
      exact ⟨hs.1.step hlaw hevent.1 hstep, hs.2.step hs.1 hevent.2 hstep⟩
    · refine ⟨LogoWorker.new_sound env, fun key m hm => ?_, fun id write hwrite => ?_⟩
      · cases hm
      · cases hwrite
    · exact along_of_mem (fun event h _ => ⟨hcanonical event (List.mem_append_left events h), hclock event h⟩) _
  have hnone (id : LogoTaskId) : s.tasks.get? id = none ∧ s.writes.get? id = none := by
    unfold Dict.get?
    rw [hidle.1, hidle.2]
    exact ⟨rfl, rfl⟩
  have hwaits : s.Waits env x n := by
    refine ⟨hstart.1, hstart.2.store, ⟨n, hnext, le_refl n⟩, hended, fun id task htask => ?_, fun id task htask => ?_,
      fun id write hwrite => ?_⟩
    · rw [(hnone id).1] at htask
      cases htask
    · rw [(hnone id).1] at htask
      cases htask
    · rw [(hnone id).2] at hwrite
      cases hwrite
  have halong := ((along_of_mem (fun event h _ => hcanonical' event h) s).and hcalm).and (horder.and hmissed)
  have hstep (s₁ : LogoWorker) (event : LogoEvent) (s₂ : LogoWorker) (hs : s₁.Waits env x n)
      (hevent : (event.Canonical env.eth ∧ s₁.Calm env event) ∧ s₁.InOrder n event ∧ s₁.Misses env x event)
      (h : s₁.step env event = some s₂) :
      s₂.Waits env x n ∧ s₂.waiting x n + event.cost env ≤ s₁.waiting x n + s₁.arrivals env event :=
    hs.step hlaw hevent.1.1 hevent.1.2 hevent.2.1 hevent.2.2 h
  have hpaid := run_potential (LogoWorker.waiting x n) (fun _ event => event.cost env) (LogoWorker.arrivals env) hstep
    hwaits halong hrun
  have hpolls : total (LogoWorker.step env) (fun _ event => event.cost env) s events =
      env.settings.dueBatchSize * events.countP LogoEvent.isPoll := total_countP (fun _ _ => rfl) hrun
  rw [hpolls] at hpaid
  have hwaiting : s.waiting x n ≤ (s.store.ahead n x).length := Nat.sub_le _ _
  omega

open LogoExample in
/-- Four chains are ahead of the fifth one and a sixth one comes in: the third poll of two has it. -/
theorem logo_queue_fair_rounds :
    ∃ pre time, pre ++ [.poll time] <+: rounds ∧ ∃ s₁, run (LogoWorker.step worker) idle pre = some s₁ ∧
      (42161, nativeTokenAlias) ∈ (s₁.due worker time).map (·.key) := by
  have hclock : ∀ event ∈ enrolments, event.Clocked := by
    intro event hevent
    obtain ⟨chainId, -, rfl⟩ := List.mem_map.1 hevent
    trivial
  have htasks : idle.tasks.items = [] := by decide +kernel
  have hwrites : idle.writes.items = [] := List.isEmpty_iff.1 (by decide +kernel)
  have hended : idle.broken = false := by decide +kernel
  have hnext : idle.store.nextAttempt (42161, nativeTokenAlias) = some 0 := by decide +kernel
  have hmany : (idle.store.ahead 0 (42161, nativeTokenAlias)).length +
      total (LogoWorker.step worker) (LogoWorker.arrivals worker) idle rounds <
        worker.settings.dueBatchSize * rounds.countP LogoEvent.isPoll := by
    rw [rounds_follows.total]
    decide +kernel
  exact logo_queue_fair worker Example.lawful rounds_canonical hclock idle_run ⟨htasks, hwrites⟩ hended hnext
    rounds_follows.run rounds_follows.calm rounds_follows.order hmany

end TokenPriceAgg
