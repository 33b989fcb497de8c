import Handoff.Host.OpenStore
import Handoff.Proofs.Directory.Walking
/-!
# A directory store is a plain map

On a directory that is empty at first, a directory store answers every sequence of calls as a
store in memory does, and leaves no temporary file behind.
-/

namespace Handoff

namespace DirectoryStore

open FileTree (below)

variable {root : Path} {keys : BlobKey → Prop} {cwd location : Location} {tree : FileTree}
  {contents : Contents}

theorem holds_empty (hempty : ∀ place, place ≠ [] → tree.lookup (location ++ place) = none) :
    Holds keys location tree fun _ => none where
  known h := by cases h
  file h := by cases h
  folders h := by cases h
  only {place entry} hplace hfound := by
    rw [hempty place hplace] at hfound
    cases hfound
  distinct := by
    refine List.Pairwise.imp_of_mem ?_ (List.pairwise_of_forall fun _ _ => trivial)
    intro a b ha _ _ hbelow hne
    obtain ⟨place, hplace⟩ := hbelow
    have hsome : place ≠ [] := by
      rintro rfl
      exact hne (by simpa using hplace.symm)
    have hnone := hempty place hsome
    rw [hplace, FileTree.lookup, if_neg (by simp [← hplace, hsome]),
      List.lookup_eq_none_iff] at hnone
    exact absurd (hnone a ha) (by simp)

namespace Holds

/-- Every call is answered as by a plain map, and leaves what it should. -/
theorem run_answer (h : Holds keys location tree contents) (hkeys : Fileable root keys)
    (hroot : tree.Reaches cwd root location) {stamp : WriterStamp} (hstamp : Bounded stamp)
    (call : StoreCall) (hcall : ∀ key, call.key? = some key → keys key) :
    ∃ answer after,
      FileTree.run cwd (DirectoryStore.answer root stamp call) tree = (answer, after) ∧
        contents.Answers call answer ∧ Holds keys location after (call.effect contents) ∧
        tree.Keeps after := by
  have hstays : tree.Keeps tree := fun _ _ hfound _ => hfound
  cases call with
  | get key => exact ⟨_, tree, h.run_get hkeys hroot (hcall key rfl), rfl, h, hstays⟩
  | has key =>
      have hget := h.run_get hkeys hroot (hcall key rfl)
      exact ⟨.ok (contents key).isSome, tree, FileTree.run_bind_eq hget, rfl, h, hstays⟩
  | put key value =>
      obtain ⟨after, hrun, hafter, hkept⟩ := h.run_put hkeys hroot (hcall key rfl) hstamp value
      exact ⟨.ok (), after, hrun, rfl, hafter, hkept⟩
  | delete key =>
      have hkey := hcall key rfl
      cases hvalue : contents key with
      | none =>
          refine ⟨.ok (), tree, h.run_delete_none hkeys hroot hkey hvalue, rfl, ?_, hstays⟩
          rwa [StoreCall.effect_delete, Function.update_eq_self_iff.2 hvalue.symm]
      | some value =>
          exact ⟨.ok (), _, h.run_delete_some hkeys hroot hkey hvalue, rfl, h.unset hkeys hkey,
            (FileTree.alters_unset tree _).keeps (h.free hkeys hkey)⟩
  | list start =>
      obtain ⟨answer, hrun, hanswer⟩ := h.run_list hkeys hroot start
      exact ⟨answer, tree, hrun, hanswer, h, hstays⟩

end Holds

structure Serves (root : Path) (keys : BlobKey → Prop) (location : Location)
    (session : Session) (contents : Contents) : Prop where
  store : session.store = .directory root
  root : session.host.files.Reaches session.host.cwd root location
  holds : Holds keys location session.host.files contents
  process : session.host.process < 2 ^ 32

theorem answer_directory {host : Host} {call : StoreCall} {after : FileTree}
    {answer : Except StoreFault call.Result}
    (hrun : FileTree.run host.cwd (DirectoryStore.answer root host.stamp.1 call) host.files =
      (answer, after)) :
    Session.answer call ⟨host, .directory root⟩ =
      (answer, ⟨host.stamp.2.withFiles after, .directory root⟩) := by
  have hfiles : host.stamp.2.runFiles (DirectoryStore.answer root host.stamp.1 call) =
      (answer, host.stamp.2.withFiles after) := by
    rw [Host.runFiles]
    exact congrArg (fun result => (result.1, host.stamp.2.withFiles result.2)) hrun
  rw [Session.answer, OpenStore.answer]
  exact congrArg (fun result => (result.1, (⟨result.2, .directory root⟩ : Session))) hfiles

theorem Serves.answer {session : Session} (h : Serves root keys location session contents)
    (hkeys : Fileable root keys) (call : StoreCall)
    (hcall : ∀ key, call.key? = some key → keys key) :
    contents.Answers call (Session.answer call session).1 ∧
      Serves root keys location (Session.answer call session).2 (call.effect contents) := by
  obtain ⟨host, store⟩ := session
  obtain ⟨rfl, hroot, hholds, hprocess⟩ := h
  have hstamp : Bounded host.stamp.1 := ⟨hprocess, Nat.mod_lt _ (by decide)⟩
  obtain ⟨answer, after, hrun, hanswer, hafter, hkept⟩ :=
    hholds.run_answer hkeys hroot hstamp call hcall
  rw [answer_directory hrun]
  exact ⟨hanswer, rfl, hroot.mono hkept, hafter, hprocess⟩

theorem Serves.accounts {session : Session} {calls : List StoreCall}
    (h : Serves root keys location session contents) (hkeys : Fileable root keys)
    (hcalls : ∀ call ∈ calls, ∀ key, call.key? = some key → keys key) :
    Contents.Accounts contents (Session.answer.serve calls session) ∧
      ∃ left, Serves root keys location (Session.answer.served calls session) left := by
  induction calls generalizing session contents with
  | nil => exact ⟨trivial, contents, h⟩
  | cons call rest ih =>
      obtain ⟨hcall, hrest⟩ := List.forall_mem_cons.1 hcalls
      obtain ⟨hanswer, hnext⟩ := h.answer hkeys call hcall
      obtain ⟨haccounts, hlast⟩ := ih hnext hrest
      exact ⟨⟨hanswer, haccounts⟩, hlast⟩

/-- On a root that is an empty directory at first, calls about keys that can be files side by
side are answered as by an empty store in memory, one after the other, and no temporary file is
left below the root. -/
theorem serves_as_memory {session : Session} {calls : List StoreCall}
    (hkeys : Fileable root keys)
    (hcalls : ∀ call ∈ calls, ∀ key, call.key? = some key → keys key)
    (hstore : session.store = .directory root)
    (hroot : session.host.files.Reaches session.host.cwd root location)
    (hempty : ∀ place, place ≠ [] → session.host.files.lookup (location ++ place) = none)
    (hprocess : session.host.process < 2 ^ 32) :
    Session.answer.serve calls session = MemoryStore.answer.serve calls StringMap.empty ∧
      ∀ place entry,
        (Session.answer.served calls session).host.files.lookup (location ++ place) = some entry →
          ∀ name, .named name ∈ place → temporaryStart.toList.isPrefixOf name.toList = false := by
  have hserves : Serves root keys location session fun _ => none :=
    ⟨hstore, hroot, holds_empty hempty, hprocess⟩
  obtain ⟨haccounts, left, hleft⟩ := hserves.accounts hkeys hcalls
  refine ⟨haccounts.eq (MemoryStore.accounts calls) ?_, fun place entry hfound name hname => ?_⟩
  · rw [StoreModel.calls_serve, StoreModel.calls_serve]
  · have hsome : place ≠ [] := List.ne_nil_of_mem hname
    obtain ⟨names, rfl, -⟩ := hleft.holds.only hsome hfound
    refine hleft.holds.not_temporary hkeys (by simpa using hsome) hfound name ?_
    simpa using hname

def plainFiles : FileTree where
  entries := [([.named "store"], .directory)]
  nextId := 1

theorem plainFiles_reaches : plainFiles.Reaches [] ⟨"store"⟩ [.named "store"] := by
  rw [FileTree.reaches_iff]
  refine ⟨by decide, by decide, by decide, ?_⟩
  exact .down ⟨by decide, by decide, by decide⟩ (by decide) .here

theorem plainFiles_lookup (place : Location) (hplace : place ≠ []) :
    plainFiles.lookup ([.named "store"] ++ place) = none := by
  have hother : [.named "store"] ++ place ≠ [.named "store"] := by simp [hplace]
  rw [FileTree.lookup, if_neg (by simp), List.lookup_eq_none_iff]
  simpa [plainFiles] using hother

def plainSession : Session where
  host := {
    kernel := {
      files := plainFiles
      clock := 0
      streams := []
      pipes := []
      nameless := []
      tasks := []
      nextProcess := 3
      nextStream := 0 }
    cwd := []
    process := 2
    serial := 0
    tag := ""
    env := StringMap.empty }
  store := .directory ⟨"store"⟩

def folderKeys : List BlobKey :=
  [BlobKey.signal .offered, ⟨"r7/status"⟩, ⟨"r7/make/stdout"⟩, ⟨"r7/make/stderr"⟩]

def folderCalls : List StoreCall :=
  [.put ⟨"r7/make/stdout"⟩ "ok".toUTF8, .put (BlobKey.signal .offered) "r7".toUTF8,
    .put ⟨"r7/make/stdout"⟩ ByteArray.empty, .put ⟨"r7/status"⟩ "1".toUTF8, .list "r7/m",
    .delete (BlobKey.signal .offered), .get (BlobKey.signal .offered), .has ⟨"r7/make/stderr"⟩,
    .list "", .delete ⟨"r7/make/stderr"⟩, .get ⟨"r7/make/stdout"⟩]

theorem fileable_folderKeys : Fileable ⟨"store"⟩ (· ∈ folderKeys) where
  valid := by decide
  apart {a b} ha hb := by
    have hall : ∀ a ∈ folderKeys, ∀ b ∈ folderKeys, a.segments <+: b.segments → a = b := by decide
    exact hall a ha b hb
  lasting := by decide
  fits := by decide
  short := by decide

theorem serves_as_memory_on_folders :
    Fileable ⟨"store"⟩ (· ∈ folderKeys) ∧
      (∀ call ∈ folderCalls, ∀ key, call.key? = some key → key ∈ folderKeys) ∧
      plainSession.store = .directory ⟨"store"⟩ ∧
      plainSession.host.files.Reaches [] ⟨"store"⟩ [.named "store"] ∧
      (∀ place, place ≠ [] → plainSession.host.files.lookup ([.named "store"] ++ place) = none) ∧
      Session.answer.serve folderCalls plainSession =
        MemoryStore.answer.serve folderCalls StringMap.empty := by
  have hcalls : ∀ call ∈ folderCalls, ∀ key, call.key? = some key → key ∈ folderKeys := by
    simp [folderCalls, folderKeys, StoreCall.key?]
  have hstore : plainSession.store = .directory ⟨"store"⟩ := rfl
  have hroot : plainSession.host.files.Reaches [] ⟨"store"⟩ [.named "store"] := plainFiles_reaches
  have hempty : ∀ place, place ≠ [] →
      plainSession.host.files.lookup ([.named "store"] ++ place) = none := plainFiles_lookup
  obtain ⟨hanswers, -⟩ := serves_as_memory fileable_folderKeys hcalls hstore hroot hempty
    (by decide)
  exact ⟨fileable_folderKeys, hcalls, hstore, hroot, hempty, hanswers⟩

end DirectoryStore

end Handoff
