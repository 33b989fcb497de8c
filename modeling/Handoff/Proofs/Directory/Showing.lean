import Handoff.Proofs.Archive.RoundTrip
import Handoff.Proofs.Directory.Statuses
/-!
# What a directory store shows of what it was given

A store on a directory that was empty at first lists exactly the keys that were put there, with
one exception: it passes over a key that has a segment like the name of a temporary file, though
such a key can be put and read.  The logs of a command or unit with such a name are not found.
-/

namespace Handoff

def Contents.acknowledge (contents : Contents) (talk : Storage.Talk) : Contents :=
  talk.foldl (fun contents e => e.1.acknowledged e.2 contents) contents

namespace DirectoryStore

open Archive (Reads fetchLogs collect gather)

variable {root : Path} {location : Location} {session : Session} {contents : Contents}
  {calls : List StoreCall}

theorem built_of_mem_put {key : BlobKey} (value : ByteArray) (hkey : key.Built) :
    ∀ call ∈ [StoreCall.put key value], ∀ other, call.key? = some other → other.Built := by
  rintro _ hcall _ hother
  obtain rfl := List.mem_singleton.1 hcall
  cases hother
  exact hkey

structure Recording (root : Path) (location : Location) (contents : Contents) (session : Session) :
    Prop where
  store : session.store = .directory root
  records : Records root session.host.cwd location session.host.files contents

namespace Recording

theorem answer (h : Recording root location contents session) {call : StoreCall}
    (hbuilt : ∀ key, call.key? = some key → key.Built) :
    Recording root location (call.acknowledged (Session.answer call session).1 contents)
      (Session.answer call session).2 := by
  obtain ⟨host, store⟩ := session
  obtain ⟨rfl, hrecords⟩ := h
  rcases hrun : FileTree.run host.cwd (DirectoryStore.answer root host.stamp.1 call) host.files with
    ⟨result, after⟩
  rw [answer_directory hrun]
  exact ⟨rfl, hrecords.answer hbuilt hrun⟩

/-- What was acknowledged is recorded, call after call. -/
theorem served (h : Recording root location contents session)
    (hcalls : ∀ call ∈ calls, ∀ key, call.key? = some key → key.Built) :
    Recording root location (contents.acknowledge (Session.answer.serve calls session))
      (Session.answer.served calls session) := by
  induction calls generalizing session contents with
  | nil => exact h
  | cons call rest ih =>
      obtain ⟨hcall, hrest⟩ := List.forall_mem_cons.1 hcalls
      exact ih (h.answer hcall) hrest

theorem answered (h : Recording root location contents session) {call : StoreCall}
    {value : call.Result} {after : FileTree}
    (hbuilt : ∀ key, call.key? = some key → key.Built)
    (hrun : FileTree.run session.host.cwd (DirectoryStore.answer root session.host.stamp.1 call)
      session.host.files = (.ok value, after)) :
    ∃ next, Session.answer call session = (.ok value, next) ∧
      Recording root location (call.effect contents) next := by
  have hnext := h.answer hbuilt
  have hok : (Session.answer call session).1 = .ok value := by
    obtain ⟨host, store⟩ := session
    obtain ⟨rfl, -⟩ := h
    rw [answer_directory hrun]
  rw [hok] at hnext
  exact ⟨_, Prod.ext hok rfl, hnext⟩

theorem list (h : Recording root location contents session) (start : String) :
    ∃ keys after, Session.answer (.list start) session = (.ok keys, after) ∧
      (lastingPart contents).Enumerates start keys ∧ Recording root location contents after := by
  obtain ⟨keys, hrun, hkeys⟩ := h.records.tended.browsable.run_list start
  rw [h.records.shown] at hkeys
  have hbuilt : ∀ other, (StoreCall.list start).key? = some other → other.Built := nofun
  obtain ⟨after, hlist, hafter⟩ := h.answered hbuilt hrun
  exact ⟨keys, after, hlist, hkeys, hafter⟩

theorem get (h : Recording root location contents session) {key : BlobKey}
    (hstored : (lastingPart contents key).isSome) :
    ∃ after, Session.answer (.get key) session = (.ok (lastingPart contents key), after) ∧
      Recording root location contents after := by
  obtain ⟨value, hvalue⟩ := Option.isSome_iff_exists.1 hstored
  have hshown := hvalue
  rw [← h.records.shown] at hshown
  have hbuilt : ∀ other, (StoreCall.get key).key? = some other → other.Built := by
    rintro _ ⟨⟩
    exact .checked (shown_eq_some_iff.1 hshown).1.1
  rw [hvalue]
  exact h.answered hbuilt (h.records.run_get hshown)

theorem run_fetchLogs (h : Recording root location contents session) (id : WorkUnitId) :
    ∃ keys, (∀ key, key ∈ keys ↔ (lastingPart contents key).isSome ∧
        MemoryStore.startsWith (BlobKey.unitStart id) key.text = true) ∧
      (Session.answer.run (fetchLogs id).run session).1 =
        .ok (gather id (lastingPart contents) keys StringMap.empty).values := by
  obtain ⟨keys, after, hlist, hkeys, hafter⟩ := h.list (BlobKey.unitStart id)
  obtain ⟨last, hcollect, -⟩ := StoreModel.run_collect (Recording root location contents) id
    (fun key hkey session hkeeps => hkeeps.get ((hkeys.mem_iff key).1 hkey).1) StringMap.empty
    hafter
  refine ⟨keys, fun key => by rw [hkeys.mem_iff, MemoryStore.startsWith_iff], ?_⟩
  rw [fetchLogs, StoreModel.run_bind_ok ((StoreModel.run_storeCall _ session).trans hlist),
    StoreModel.run_bind_ok hcollect]
  rfl

end Recording

theorem lasting_log_iff {id : WorkUnitId} {label : CommandLabel} {field : LogField} :
    Lasting (BlobKey.log id label field).segments ↔ Lasting [id.text, label.text] := by
  have hfield : temporaryStart.toList.isPrefixOf field.name.toList = false := by
    cases field <;> decide
  have hsegments : (BlobKey.log id label field).segments = [id.text, label.text, field.name] :=
    Slot.segments_log id label field
  simp [Lasting, hsegments, hfield]

/-- After any calls on a store that was empty at first, each of which may succeed or fail, a
listing gives exactly the keys with a stored value that start as wanted and have no segment like
the name of a temporary file; and for a unit, logs are found for exactly those labels with a
stored value for which neither the id nor the label is like that. -/
theorem lasting_blobs_listed (hstore : session.store = .directory root)
    (hroot : session.host.files.Reaches session.host.cwd root location)
    (hempty : ∀ place, place ≠ [] → session.host.files.lookup (location ++ place) = none)
    (hcalls : ∀ call ∈ calls, ∀ key, call.key? = some key → key.Built) :
    let stored := Contents.acknowledge (fun _ => none) (Session.answer.serve calls session)
    let after := Session.answer.served calls session
    (∀ start, ∃ keys, (Session.answer (.list start) after).1 = .ok keys ∧
      (lastingPart stored).Enumerates start keys) ∧
    ∀ id, ∃ logs, (Session.answer.run (fetchLogs id).run after).1 = .ok logs ∧
      (logs.map fun log => log.label.text).Pairwise (· < ·) ∧
      (∀ label, (∃ log ∈ logs, log.label = label) ↔ Lasting [id.text, label.text] ∧
        ∃ field, (stored (BlobKey.log id label field)).isSome) ∧
      ∀ log ∈ logs, ∀ field, Reads log (stored (BlobKey.log id log.label field)) field := by
  intro stored after
  have hfirst : Recording root location (fun _ => none) session :=
    ⟨hstore, records_empty hroot hempty⟩
  have hafter : Recording root location stored after := hfirst.served hcalls
  refine ⟨fun start => ?_, fun id => ?_⟩
  · obtain ⟨keys, next, hlist, hkeys, -⟩ := hafter.list start
    exact ⟨keys, congrArg Prod.fst hlist, hkeys⟩
  · obtain ⟨keys, hkeys, hfetch⟩ := hafter.run_fetchLogs id
    obtain ⟨hsorted, hlabels, hreads⟩ := Archive.gather_listed hkeys
    have hpart (label : CommandLabel) (field : LogField) :
        lastingPart stored (BlobKey.log id label field) =
          if Lasting [id.text, label.text] then stored (BlobKey.log id label field) else none := by
      simp only [lastingPart, lasting_log_iff]
    simp only [hpart] at hlabels hreads
    have hnamed (label : CommandLabel) :
        (∃ log ∈ (gather id (lastingPart stored) keys StringMap.empty).values,
            log.label = label) ↔
          Lasting [id.text, label.text] ∧
            ∃ field, (stored (BlobKey.log id label field)).isSome := by
      rw [hlabels]
      by_cases hlasting : Lasting [id.text, label.text] <;> simp [hlasting]
    refine ⟨_, hfetch, hsorted, hnamed, fun log hlog field => ?_⟩
    have hread := hreads log hlog field
    rwa [if_pos ((hnamed log.label).1 ⟨log, hlog, rfl⟩).1] at hread

def runKeys : List BlobKey :=
  [BlobKey.log Archive.weekly Archive.plainLabel .stdout, BlobKey.status Archive.weekly]

def runCalls : List StoreCall :=
  [.put (BlobKey.log Archive.weekly Archive.plainLabel .stdout) "ok".toUTF8,
    .put (BlobKey.status Archive.weekly) "1".toUTF8]

theorem fileable_runKeys : Fileable ⟨"store"⟩ (· ∈ runKeys) where
  valid := by decide
  apart {a b} ha hb := by
    have hall : ∀ a ∈ runKeys, ∀ b ∈ runKeys, a.segments <+: b.segments → a = b := by decide
    exact hall a ha b hb
  lasting := by decide
  fits := by decide
  short := by decide

/-- The output of a run is listed, and found among the logs. -/
theorem lasting_blobs_listed_on_run :
    plainSession.store = .directory ⟨"store"⟩ ∧
      plainSession.host.files.Reaches [] ⟨"store"⟩ [.named "store"] ∧
      (∀ place, place ≠ [] → plainSession.host.files.lookup ([.named "store"] ++ place) = none) ∧
      (∀ call ∈ runCalls, ∀ key, call.key? = some key → key.Built) ∧
      (∃ keys, (Session.answer (.list "") (Session.answer.served runCalls plainSession)).1 =
          .ok keys ∧
        BlobKey.log Archive.weekly Archive.plainLabel .stdout ∈ keys) ∧
      ∃ logs log, (Session.answer.run (fetchLogs Archive.weekly).run
          (Session.answer.served runCalls plainSession)).1 = .ok logs ∧
        log ∈ logs ∧ log.label = Archive.plainLabel ∧ log.stdout = some "ok".toUTF8 := by
  have hmember : ∀ call ∈ runCalls, ∀ key, call.key? = some key → key ∈ runKeys := by
    simp [runCalls, runKeys, StoreCall.key?]
  have hbuilt : ∀ call ∈ runCalls, ∀ key, call.key? = some key → key.Built :=
    fun call hcall key hkey => .checked (fileable_runKeys.valid (hmember call hcall key hkey))
  have hstore : plainSession.store = .directory ⟨"store"⟩ := rfl
  have hroot : plainSession.host.files.Reaches [] ⟨"store"⟩ [.named "store"] := plainFiles_reaches
  have hempty : ∀ place, place ≠ [] →
      plainSession.host.files.lookup ([.named "store"] ++ place) = none := plainFiles_lookup
  have hserves : Serves ⟨"store"⟩ (· ∈ runKeys) [.named "store"] plainSession fun _ => none :=
    ⟨hstore, hroot, holds_empty hempty, by decide⟩
  obtain ⟨⟨hfirst, hsecond, -⟩, -⟩ := hserves.accounts fileable_runKeys hmember
  have hstored : Contents.acknowledge (fun _ => none)
      (Session.answer.serve runCalls plainSession)
        (BlobKey.log Archive.weekly Archive.plainLabel .stdout) = some "ok".toUTF8 := by
    have hkept : (StoreCall.put (BlobKey.status Archive.weekly) "1".toUTF8).acknowledged (.ok ())
        ((StoreCall.put (BlobKey.log Archive.weekly Archive.plainLabel .stdout)
          "ok".toUTF8).acknowledged (.ok ()) fun _ => none)
        (BlobKey.log Archive.weekly Archive.plainLabel .stdout) = some "ok".toUTF8 := by decide
    rw [← hkept]
    exact congrFun (congrArg₂ (fun a b => StoreCall.acknowledged _ a
      (StoreCall.acknowledged _ b fun _ => none)) hsecond hfirst) _
  obtain ⟨hlists, hfetches⟩ := lasting_blobs_listed hstore hroot hempty hbuilt
  obtain ⟨keys, hlist, hkeys⟩ := hlists ""
  obtain ⟨logs, hfetch, -, hlabels, hreads⟩ := hfetches Archive.weekly
  obtain ⟨log, hlog, hlabel⟩ := (hlabels Archive.plainLabel).2
    ⟨by decide, .stdout, Option.isSome_of_eq_some hstored⟩
  have hread := hreads log hlog .stdout
  rw [hlabel, hstored] at hread
  refine ⟨hstore, hroot, hempty, hbuilt, ⟨keys, hlist, (hkeys.mem_iff _).2 ⟨?_, ?_⟩⟩, logs, log,
    hfetch, hlog, hlabel, hread⟩
  · have hlasting : Lasting (BlobKey.log Archive.weekly Archive.plainLabel .stdout).segments := by
      decide
    rw [lastingPart, if_pos hlasting, hstored]
    rfl
  · exact List.nil_prefix

/-! ## A unit that is not found -/

def reservedUnit : WorkUnitId := ⟨".ho-tmp-1", by decide⟩

theorem run_put_reserved : ∃ after,
    FileTree.run [] (put ⟨"store"⟩ ⟨2, 0⟩ (BlobKey.status reservedUnit) "0".toUTF8) plainFiles =
      (.ok (), after) := by
  have hsplit : (BlobKey.status reservedUnit).segments = [reservedUnit.text] ++ ["status"] :=
    Slot.segments_status reservedUnit
  have hfits : ∀ segment ∈ (BlobKey.status reservedUnit).segments,
      segment.utf8ByteSize ≤ FileTree.nameMax := by
    rw [hsplit]
    decide
  have hstamp : Bounded ⟨2, 0⟩ := ⟨by decide, by decide⟩
  have hne : temporaryName ⟨2, 0⟩ ≠ "status" := by decide
  obtain ⟨after, hput, -⟩ := run_put_of_empty plainFiles_reaches plainFiles_lookup hsplit
    (BlobKey.Built.isPlain (.status reservedUnit)) hfits (by decide) hstamp hne "0".toUTF8
  exact ⟨after, hput⟩

/-- The status of such a unit is put, and is not listed. -/
theorem reserved_status_unlisted :
    Session.answer.serve [.put (BlobKey.status reservedUnit) "0".toUTF8] plainSession =
        [⟨.put (BlobKey.status reservedUnit) "0".toUTF8, .ok ()⟩] ∧
      (Session.answer (.list "") (Session.answer.served
        [.put (BlobKey.status reservedUnit) "0".toUTF8] plainSession)).1 = .ok [] := by
  obtain ⟨after, hput⟩ := run_put_reserved
  have hanswer : FileTree.run plainSession.host.cwd (DirectoryStore.answer ⟨"store"⟩
      plainSession.host.stamp.1 (.put (BlobKey.status reservedUnit) "0".toUTF8))
      plainSession.host.files = (.ok (), after) := hput
  have hserve : Session.answer.serve [.put (BlobKey.status reservedUnit) "0".toUTF8] plainSession =
      [⟨.put (BlobKey.status reservedUnit) "0".toUTF8, .ok ()⟩] :=
    congrArg (fun answered => [(⟨.put (BlobKey.status reservedUnit) "0".toUTF8, answered⟩ :
      Sigma Storage.Answer)]) (congrArg Prod.fst (answer_directory hanswer))
  refine ⟨hserve, ?_⟩
  have hfirst : Recording ⟨"store"⟩ [.named "store"] (fun _ => none) plainSession :=
    ⟨rfl, records_empty plainFiles_reaches plainFiles_lookup⟩
  have hafter := hfirst.served (built_of_mem_put "0".toUTF8 (.status reservedUnit))
  rw [hserve] at hafter
  obtain ⟨keys, next, hlist, hkeys, -⟩ := hafter.list ""
  have hlasting : ¬Lasting (BlobKey.status reservedUnit).segments := by decide
  have hempty : keys = [] := by
    refine List.eq_nil_iff_forall_not_mem.2 fun key hkey => ?_
    have hstored := ((hkeys.mem_iff key).1 hkey).1
    change (lastingPart (Function.update (fun _ => none) (BlobKey.status reservedUnit)
      (some "0".toUTF8)) key).isSome at hstored
    rw [lastingPart_update, if_neg hlasting, lastingPart] at hstored
    simp at hstored
  rw [hlist, hempty]

end DirectoryStore

end Handoff
