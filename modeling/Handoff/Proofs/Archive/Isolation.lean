import Handoff.Proofs.Archive.RoundTrip
import Handoff.Proofs.Blob.Reference
import Handoff.Proofs.Performance
/-!
# Units and signals keep apart

The keys of one unit, those of another and the signals share one flat namespace.  What is
archived for a unit and what is done to the signals shows nowhere else, whatever the store
holds and whether or not the calls break down.
-/

namespace Handoff

/-! ## Stores whose listings are local -/

/-- A store that behaves as a map in its tidy states.  What it lists depends only on the values
under the keys that start as wanted, and calls about keys that there are leave it tidy. -/
structure PlainMap {σ : Type} (model : StoreModel σ) extends KeyValue model where
  tidy : σ → Prop
  tidy_snd : ∀ {call s}, tidy s → (∀ key, call.key? = some key → key.Built) →
    tidy (model call s).2
  list_congr : ∀ {start s t}, tidy s → tidy t →
    (∀ key, MemoryStore.startsWith start key.text = true → contents s key = contents t key) →
    (model (.list start) s).1 = (model (.list start) t).1

namespace Contents

variable {a b : Contents} {start : String} {keys : List BlobKey}

theorem Enumerates.congr (h : a.Enumerates start keys)
    (hagree : ∀ key, MemoryStore.startsWith start key.text = true → a key = b key) :
    b.Enumerates start keys where
  mem_iff key := by
    rw [h.mem_iff, ← MemoryStore.startsWith_iff]
    exact and_congr_left fun hkey => by rw [hagree key hkey]
  ascending := h.ascending

theorem Answers.congr {x y : Except StoreFault (List BlobKey)} (ha : a.Answers (.list start) x)
    (hb : b.Answers (.list start) y)
    (hagree : ∀ key, MemoryStore.startsWith start key.text = true → a key = b key) : x = y := by
  obtain ⟨keys, hkeys, rfl⟩ := ha
  have hx : b.Answers (.list start) (listed keys) := ⟨keys, hkeys.congr hagree, rfl⟩
  exact hx.eq hb

end Contents

def MemoryStore.plainMap : PlainMap MemoryStore.answer where
  toKeyValue := MemoryStore.keyValue
  tidy _ := True
  tidy_snd _ _ := trivial
  list_congr _ _ hagree := (MemoryStore.answers _ _).congr (MemoryStore.answers _ _) hagree

def BlobTable.plainMap : PlainMap BlobTable.answer where
  toKeyValue := BlobTable.keyValue
  tidy := BlobTable.Tidy
  tidy_snd hs hbuilt := hs.answer hbuilt
  list_congr hs ht hagree := (hs.answers _).congr (ht.answers _) hagree

/-! ## Programs that are about some keys only -/

theorem StoreCall.effect_of_ne {call : StoreCall} {contents : Contents} {key : BlobKey}
    (h : call.key? ≠ some key) : call.effect contents key = contents key := by
  cases call with
  | put other _ | delete other =>
      exact Function.update_of_ne (fun heq => h (congrArg some heq.symm)) _ _
  | _ => rfl

section Confined

variable {α β : Type} {keys : BlobKey → Prop}

/-- The program makes no call about a key but these. -/
def Confined (keys : BlobKey → Prop) (program : Program Storage α) : Prop :=
  program.Within (fun call => ∀ key, StoreCall.key? call = some key → keys key) fun _ => True

theorem confined_storeCall {call : StoreCall} (h : ∀ key, call.key? = some key → keys key) :
    Confined keys (storeCall call).run :=
  Program.within_ask.2 fun _ => ⟨h, trivial⟩

theorem Confined.bind {program : StoreM α} {next : α → StoreM β}
    (h : Confined keys program.run) (hnext : ∀ value, Confined keys (next value).run) :
    Confined keys (program >>= next).run := by
  rw [ExceptT.run_bind]
  refine Program.within_bind.2 (h.mono fun result _ => ?_)
  cases result with
  | ok value => exact hnext value
  | error fault => trivial

variable {σ : Type} {model : StoreModel σ}

/-- A program that is about some keys leaves the values of all others as they are, though its
calls may break down. -/
theorem Confined.endure (map : PlainMap model) {program : Program Storage α}
    (h : Confined keys program) (hbuilt : ∀ key, keys key → key.Built) (fates : List CallFate)
    {s : σ} (hs : map.tidy s) :
    map.tidy (model.endure program fates s).2 ∧ ∀ key, ¬ keys key →
      map.contents (model.endure program fates s).2 key = map.contents s key := by
  induction program generalizing fates s with
  | done value => cases fates <;> exact ⟨hs, fun _ _ => rfl⟩
  | ask call next ih =>
      have hcall (key : BlobKey) (hkey : StoreCall.key? call = some key) : keys key :=
        (Program.within_ask.1 h (model call s).1).1 key hkey
      have hnext (answer : Except StoreFault (StoreCall.Result call)) :
          Confined keys (next answer) := (Program.within_ask.1 h answer).2
      have htidy : map.tidy (model call s).2 :=
        map.tidy_snd hs fun key hkey => hbuilt key (hcall key hkey)
      have hkept (key : BlobKey) (hkey : ¬ keys key) :
          map.contents (model call s).2 key = map.contents s key :=
        (congrFun (map.contents_snd call s) key).trans
          (StoreCall.effect_of_ne fun heq => hkey (hcall key heq))
      have taken (answer : Except StoreFault (StoreCall.Result call)) (rest : List CallFate) :
          map.tidy (model.endure (next answer) rest (model call s).2).2 ∧ ∀ key, ¬ keys key →
            map.contents (model.endure (next answer) rest (model call s).2).2 key =
              map.contents s key := by
        obtain ⟨hlast, hsame⟩ := ih answer (hnext answer) rest htidy
        exact ⟨hlast, fun key hkey => (hsame key hkey).trans (hkept key hkey)⟩
      match fates with
      | [] => exact taken _ []
      | .served :: rest => exact taken _ rest
      | .hidden fault :: rest => exact taken (.error fault) rest
      | .lost fault :: rest => exact ih (.error fault) (hnext _) rest hs

end Confined

namespace Archive

/-! ## The operations -/

def Entry.unit : Entry → WorkUnitId
  | record id _ _ => id
  | status id _ => id

inductive SignalChange where
  | put (signal : Signal) (id : WorkUnitId)
  | delete (signal : Signal)
  | clearStale

/-- A write to the archive, or a change of the signals. -/
inductive Operation where
  | archive (entry : Entry)
  | signals (change : SignalChange)

variable {σ : Type}

def SignalChange.endure (model : StoreModel σ) (fates : List CallFate) (s : σ) :
    SignalChange → σ
  | put signal id => (model.endure (SignalBoard.put signal id).run fates s).2
  | delete signal => (model.endure (SignalBoard.delete signal).run fates s).2
  | clearStale => (model.endure SignalBoard.clearStale.run fates s).2

def Operation.endure (model : StoreModel σ) (fates : List CallFate) (s : σ) : Operation → σ
  | archive entry => (model.endure entry.put.run fates s).2
  | signals change => change.endure model fates s

def endureAll (model : StoreModel σ) : List (Operation × List CallFate) → σ → σ
  | [], s => s
  | (operation, fates) :: rest, s => endureAll model rest (operation.endure model fates s)

inductive UnitKey (id : WorkUnitId) : BlobKey → Prop
  | status : UnitKey id (BlobKey.status id)
  | log (label : CommandLabel) (field : LogField) : UnitKey id (BlobKey.log id label field)

def SignalKey (key : BlobKey) : Prop :=
  ∃ signal, key = BlobKey.signal signal

theorem UnitKey.built {id : WorkUnitId} {key : BlobKey} (h : UnitKey id key) : key.Built := by
  cases h with
  | status => exact .status id
  | log label field => exact .log id label field

theorem SignalKey.built {key : BlobKey} (h : SignalKey key) : key.Built := by
  obtain ⟨signal, rfl⟩ := h
  exact .signal signal

theorem UnitKey.startsWith {id : WorkUnitId} {key : BlobKey} (h : UnitKey id key) :
    MemoryStore.startsWith (BlobKey.unitStart id) key.text = true := by
  cases h with
  | status => exact BlobKey.startsWith_status id
  | log label field => exact BlobKey.startsWith_log id label field

theorem UnitKey.not_signal {id : WorkUnitId} {key : BlobKey} (h : UnitKey id key) :
    ¬ SignalKey key := by
  rintro ⟨signal, rfl⟩
  generalize hkey : BlobKey.signal signal = key at h
  cases h <;> simp at hkey

theorem UnitKey.unit_eq {id other : WorkUnitId} {key : BlobKey} (h : UnitKey id key)
    (hother : MemoryStore.startsWith (BlobKey.unitStart other) key.text = true) : id = other := by
  cases h with
  | log label field => exact BlobKey.unit_of_startsWith_log hother
  | status =>
      rw [MemoryStore.startsWith, BlobKey.toList_status,
        BlobKey.startsWith_unitStart_iff id.slash_notMem] at hother
      exact WorkUnitId.text_injective (String.toList_injective hother)

theorem SignalKey.not_startsWith {key : BlobKey} (h : SignalKey key) (id : WorkUnitId) :
    ¬ MemoryStore.startsWith (BlobKey.unitStart id) key.text = true := by
  obtain ⟨signal, rfl⟩ := h
  rw [MemoryStore.startsWith, BlobKey.toList_signal,
    BlobKey.startsWith_unitStart_iff BlobKey.slash_notMem_signalSegment]
  exact (BlobKey.toList_ne_signalSegment id).symm

/-- The keys that an operation is about. -/
def Operation.Keys : Operation → BlobKey → Prop
  | archive entry => UnitKey entry.unit
  | signals _ => SignalKey

theorem confined_putFields (id : WorkUnitId) (label : CommandLabel) (record : ExecutionRecord)
    (fields : List LogField) : Confined (UnitKey id) (putFields id label record fields).run := by
  induction fields with
  | nil => exact trivial
  | cons field rest ih =>
      refine (confined_storeCall fun key hkey => ?_).bind fun _ => ih
      cases hkey
      exact .log label field

theorem confined_entry (entry : Entry) : Confined (UnitKey entry.unit) entry.put.run := by
  cases entry with
  | record id label record => exact confined_putFields id label record writeOrder
  | status id status =>
      refine confined_storeCall fun key hkey => ?_
      cases hkey
      exact .status

theorem confined_signal (call : Signal → StoreCall)
    (hcall : ∀ signal, (call signal).key? = some (BlobKey.signal signal)) (signal : Signal) :
    Confined SignalKey (storeCall (call signal)).run :=
  confined_storeCall fun _ hkey => ⟨signal, Option.some.inj (hkey.symm.trans (hcall signal))⟩

theorem confined_clear (signals : List Signal) :
    Confined SignalKey (SignalBoard.clear signals).run := by
  induction signals with
  | nil => exact trivial
  | cons signal rest ih =>
      have hup : Confined SignalKey (SignalBoard.isUp signal).run :=
        confined_signal (fun s => .has (BlobKey.signal s)) (fun _ => rfl) signal
      have hdown : Confined SignalKey (SignalBoard.delete signal).run :=
        confined_signal (fun s => .delete (BlobKey.signal s)) (fun _ => rfl) signal
      refine hup.bind fun up => ?_
      cases up with
      | false => exact ih
      | true => exact hdown.bind fun _ => ih.bind fun _ => trivial

variable {model : StoreModel σ} (map : PlainMap model)
include map

theorem Operation.kept (operation : Operation) (fates : List CallFate) {s : σ}
    (hs : map.tidy s) : map.tidy (operation.endure model fates s) ∧
      ∀ key, ¬ operation.Keys key →
        map.contents (operation.endure model fates s) key = map.contents s key := by
  have board {α : Type} {program : Program Storage α} (h : Confined SignalKey program) :=
    h.endure map (fun _ => SignalKey.built) fates hs
  cases operation with
  | archive entry => exact (confined_entry entry).endure map (fun _ => UnitKey.built) fates hs
  | signals change =>
      cases change with
      | put signal id =>
          exact board (confined_signal (fun s => .put (BlobKey.signal s) id.text.toUTF8)
            (fun _ => rfl) signal)
      | delete signal =>
          exact board (confined_signal (fun s => .delete (BlobKey.signal s))
            (fun _ => rfl) signal)
      | clearStale => exact board (confined_clear Signal.all)

/-- Operations change no value but those under the keys of one of them. -/
theorem endureAll_kept (steps : List (Operation × List CallFate)) {s : σ} (hs : map.tidy s) :
    map.tidy (endureAll model steps s) ∧
      ∀ key, (∀ step ∈ steps, ¬ step.1.Keys key) →
        map.contents (endureAll model steps s) key = map.contents s key := by
  induction steps generalizing s with
  | nil => exact ⟨hs, fun _ _ => rfl⟩
  | cons step rest ih =>
      obtain ⟨operation, fates⟩ := step
      obtain ⟨hnext, hfirst⟩ := operation.kept map fates hs
      obtain ⟨hlast, hrest⟩ := ih hnext
      refine ⟨hlast, fun key hkey => ?_⟩
      rw [List.forall_mem_cons] at hkey
      exact (hrest key hkey.2).trans (hfirst key hkey.1)

/-! ## What is read -/

omit map in
theorem gather_congr {id : WorkUnitId} {a b : Contents} (keys : List BlobKey)
    (hagree : ∀ key, UnitKey id key → a key = b key) (logs : StringMap ArchivedLog) :
    gather id a keys logs = gather id b keys logs := by
  induction keys generalizing logs with
  | nil => rfl
  | cons key rest ih =>
      unfold gather
      cases hparse : BlobKey.parseLog id key with
      | none => exact ih logs
      | some named =>
          obtain ⟨label, field⟩ := named
          have hkey : UnitKey id key := by
            rw [BlobKey.eq_log_of_parseLog hparse]
            exact .log label field
          rw [hagree key hkey]
          cases b key with
          | none => exact ih logs
          | some content => exact ih _

/-- The logs of a unit depend on the values under keys that start like its own. -/
theorem fetchLogs_congr {id : WorkUnitId} {s t : σ} (hs : map.tidy s) (ht : map.tidy t)
    (hagree : ∀ key, MemoryStore.startsWith (BlobKey.unitStart id) key.text = true →
      map.contents s key = map.contents t key) :
    (model.run (fetchLogs id).run s).1 = (model.run (fetchLogs id).run t).1 := by
  rw [map.run_fetchLogs, map.run_fetchLogs, map.list_congr hs ht hagree]
  refine congrArg (Except.map · _) (funext fun keys => ?_)
  rw [gather_congr keys fun key hkey => hagree key hkey.startsWith]

theorem readStatus_congr {id : WorkUnitId} {s t : σ}
    (hagree : map.contents s (BlobKey.status id) = map.contents t (BlobKey.status id)) :
    (model.run (readStatus id).run s).1 = (model.run (readStatus id).run t).1 := by
  have hread (u : σ) : (model.run (readStatus id).run u).1 =
      .ok (statusOf (map.contents u (BlobKey.status id))) := by
    rw [run_readStatus]
    change (statusOf <$> (model (.get (BlobKey.status id)) u).1 : Except StoreFault _) = _
    rw [map.get_eq]
    rfl
  rw [hread, hread, hagree]

def snapshotOf (contents : Contents) : Except StoreFault SignalSnapshot := do
  let shown (signal : Signal) :=
    SignalBoard.reading signal (.ok (contents (BlobKey.signal signal)))
  return { offered := ← shown .offered, claimed := ← shown .claimed, finished := ← shown .finished }

theorem run_snapshot (s : σ) :
    model.run SignalBoard.snapshot.run s = (snapshotOf (map.contents s), s) := by
  have hread (signal : Signal) : model.run (SignalBoard.read signal).run s =
      (SignalBoard.reading signal (.ok (map.contents s (BlobKey.signal signal))), s) := by
    rw [SignalBoard.run_read]
    change (SignalBoard.reading signal (model (.get (BlobKey.signal signal)) s).1,
      (model (.get (BlobKey.signal signal)) s).2) = _
    rw [map.get_eq]
  -- The first signal that cannot be read ends the snapshot.
  have step {α : Type} (signal : Signal) (next : Option WorkUnitId → StoreM α)
      (rest : Option WorkUnitId → Except StoreFault α)
      (h : ∀ id, model.run (next id).run s = (rest id, s)) :
      model.run (SignalBoard.read signal >>= next).run s =
        ((SignalBoard.reading signal (.ok (map.contents s (BlobKey.signal signal)))).bind rest,
          s) := by
    cases hfound : SignalBoard.reading signal (.ok (map.contents s (BlobKey.signal signal))) with
    | error fault => exact StoreModel.run_bind_error (hfound ▸ hread signal)
    | ok id => exact (StoreModel.run_bind_ok (hfound ▸ hread signal)).trans (h id)
  exact step .offered _ _ fun _ => step .claimed _ _ fun _ => step .finished _ _ fun _ => rfl

theorem snapshot_congr {s t : σ} (hagree : ∀ signal, map.contents s (BlobKey.signal signal) =
      map.contents t (BlobKey.signal signal)) :
    (model.run SignalBoard.snapshot.run s).1 = (model.run SignalBoard.snapshot.run t).1 := by
  rw [run_snapshot map, run_snapshot map, snapshotOf, snapshotOf]
  simp only [hagree]

/-- The operations are about the unit or the signals. -/
def Operation.Concerns (id : WorkUnitId) : Operation → Prop
  | archive entry => entry.unit = id
  | signals _ => True

/-- What is archived for one unit and done to the signals, with any calls breaking down, shows
in nothing that is read for another unit, and in no value but those under the keys of the one
and of the signals.  What is archived does not show in the signals, and what is done to the
signals shows in the logs and the status of no unit. -/
theorem isolated {a b : WorkUnitId} (hab : a ≠ b) {steps : List (Operation × List CallFate)}
    (concerned : ∀ step ∈ steps, step.1.Concerns a) {s : σ} (hs : map.tidy s) :
    (model.run (readStatus b).run (endureAll model steps s)).1 =
        (model.run (readStatus b).run s).1 ∧
      (model.run (fetchLogs b).run (endureAll model steps s)).1 =
        (model.run (fetchLogs b).run s).1 ∧
      (∀ key, ¬ MemoryStore.startsWith (BlobKey.unitStart a) key.text = true →
        (∀ signal, key ≠ BlobKey.signal signal) →
          map.contents (endureAll model steps s) key = map.contents s key) ∧
      ((∀ step ∈ steps, ∃ entry, step.1 = .archive entry) →
        (model.run SignalBoard.snapshot.run (endureAll model steps s)).1 =
          (model.run SignalBoard.snapshot.run s).1) ∧
      ((∀ step ∈ steps, ∃ change, step.1 = .signals change) → ∀ id,
        (model.run (readStatus id).run (endureAll model steps s)).1 =
            (model.run (readStatus id).run s).1 ∧
          (model.run (fetchLogs id).run (endureAll model steps s)).1 =
            (model.run (fetchLogs id).run s).1) := by
  obtain ⟨htidy, hkept⟩ := endureAll_kept map steps hs
  -- The keys that start like those of some unit are not touched: nothing is read of it.
  have unread {id : WorkUnitId}
      (h : ∀ key, MemoryStore.startsWith (BlobKey.unitStart id) key.text = true →
        ∀ step ∈ steps, ¬ step.1.Keys key) :
      (model.run (readStatus id).run (endureAll model steps s)).1 =
          (model.run (readStatus id).run s).1 ∧
        (model.run (fetchLogs id).run (endureAll model steps s)).1 =
          (model.run (fetchLogs id).run s).1 :=
    ⟨readStatus_congr map (hkept _ (h _ (BlobKey.startsWith_status id))),
      fetchLogs_congr map htidy hs fun key hkey => hkept key (h key hkey)⟩
  have hothers : ∀ key, MemoryStore.startsWith (BlobKey.unitStart b) key.text = true →
      ∀ step ∈ steps, ¬ step.1.Keys key := by
    rintro key hkey ⟨operation, fates⟩ hstep hown
    cases operation with
    | signals change => exact SignalKey.not_startsWith hown b hkey
    | archive entry => exact hab ((concerned _ hstep).symm.trans (UnitKey.unit_eq hown hkey))
  refine ⟨(unread hothers).1, (unread hothers).2, fun key hkey hsignal => ?_, fun harchive => ?_,
    fun hsignals id => ?_⟩
  · refine hkept key ?_
    rintro ⟨operation, fates⟩ hstep hown
    cases operation with
    | signals change =>
        obtain ⟨signal, heq⟩ := hown
        exact hsignal signal heq
    | archive entry =>
        have hunit : entry.unit = a := concerned _ hstep
        exact hkey (hunit ▸ hown.startsWith)
  · refine snapshot_congr map fun signal => hkept _ fun step hstep hown => ?_
    obtain ⟨entry, hentry⟩ := harchive step hstep
    rw [hentry] at hown
    exact UnitKey.not_signal hown ⟨signal, rfl⟩
  · refine unread fun key hkey step hstep hown => ?_
    obtain ⟨change, hchange⟩ := hsignals step hstep
    rw [hchange] at hown
    exact SignalKey.not_startsWith hown id hkey

omit map

def heldStore : MemoryStore :=
  StringMap.empty.insert (BlobKey.status weeklyRetry).text Status.failed.payload

def brokenSteps : List (Operation × List CallFate) :=
  [(.archive (.record weekly plainLabel brokenRun), [.served, .hidden .poisoned]),
    (.signals (.put .offered weekly), []), (.archive (.status weekly .passed), [.lost .poisoned]),
    (.signals .clearStale, [.served, .served, .lost .poisoned])]

theorem isolated_on_broken :
    weekly ≠ weeklyRetry ∧ (∀ step ∈ brokenSteps, step.1.Concerns weekly) ∧
      MemoryStore.plainMap.tidy heldStore ∧
      (MemoryStore.answer.run (readStatus weeklyRetry).run
        (endureAll MemoryStore.answer brokenSteps heldStore)).1 = .ok (some .failed) ∧
      (MemoryStore.answer.run (fetchLogs weeklyRetry).run
        (endureAll MemoryStore.answer brokenSteps heldStore)).1 = .ok [] := by
  have hne : weekly ≠ weeklyRetry := by decide
  have hconcerned : ∀ step ∈ brokenSteps, step.1.Concerns weekly := by
    simp [brokenSteps, Operation.Concerns, Entry.unit]
  obtain ⟨hstatus, hlogs, -⟩ :=
    isolated MemoryStore.plainMap hne hconcerned (s := heldStore) trivial
  exact ⟨hne, hconcerned, trivial, hstatus.trans (by decide), hlogs.trans (by decide)⟩

end Archive

end Handoff
