import Handoff.Git
import Handoff.Proofs.Conversation
/-!
# What git was asked for a checkout

The runs of git behind each answer of a checkout: a revision that cannot be checked out,
and a revision that is now checked out.
-/

namespace Handoff

theorem WorkUnitId.text_of_ofText {raw : String} {id : WorkUnitId}
    (h : WorkUnitId.ofText raw = .ok id) : id.text = Text.trim raw := by
  unfold WorkUnitId.ofText at h
  dsimp only at h
  split at h
  · cases h
    rfl
  · cases h

namespace GitClient

open Program

variable (client : GitClient)

abbrev ran (arguments : List String) (output : GitOutput) : Sigma Git.Answer :=
  ⟨("-C" :: client.repo.text :: arguments : List String), (.ok output : Except OsFault GitOutput)⟩

/-- Git found no local modifications, went to the branch and pulled; only the checkout of
`id` itself did not succeed. -/
def Unreachable (id : WorkUnitId) (talk : Git.Talk) : Prop :=
  ∃ difference branch pull checkout : GitOutput,
    talk = [client.ran ["diff", "HEAD"] difference, client.ran ["checkout", client.branch] branch,
      client.ran ["pull"] pull, client.ran ["checkout", id.text] checkout] ∧
    difference.status.success = true ∧ difference.stdout.isEmpty = true ∧
    branch.status.success = true ∧ pull.status.success = true ∧
    checkout.status.success = false

/-- Git found no local modifications, went to the branch, pulled and checked out `id`, and
the revision that it reported then reads `head`. -/
def Reached (id : WorkUnitId) (head : String) (talk : Git.Talk) : Prop :=
  ∃ difference branch pull checkout revision : GitOutput,
    talk = [client.ran ["diff", "HEAD"] difference, client.ran ["checkout", client.branch] branch,
      client.ran ["pull"] pull, client.ran ["checkout", id.text] checkout,
      client.ran ["rev-parse", "HEAD"] revision] ∧
    difference.status.success = true ∧ difference.stdout.isEmpty = true ∧
    branch.status.success = true ∧ pull.status.success = true ∧
    checkout.status.success = true ∧ revision.status.success = true ∧
    streamText revision.stdout = head

variable {client} {talk : Git.Talk}

theorem ran_of_invoke {arguments : List String} {output : GitOutput}
    (h : Converses (client.invoke arguments).run talk (done (.ok output))) :
    talk = [client.ran arguments output] := by
  cases h with
  | @ask _ _ answer talk _ later =>
      cases answer with
      | error fault => cases (converses_done.1 later).2
      | ok found =>
          obtain ⟨rfl, hrest⟩ := converses_done.1 later
          cases hrest
          rfl

theorem ran_of_demand {arguments : List String} {output : GitOutput}
    (h : Converses (client.demand arguments).run talk (done (.ok output))) :
    talk = [client.ran arguments output] ∧ output.status.success = true := by
  obtain ⟨found, first, second, rfl, hinvoke, hrest⟩ := Converses.ok_bind h
  split at hrest
  · next hsuccess =>
    obtain ⟨rfl, hdone⟩ := converses_done.1 hrest
    cases hdone
    exact ⟨by rw [ran_of_invoke hinvoke]; rfl, hsuccess⟩
  · cases (converses_done.1 hrest).2

theorem ran_of_ensureClean (h : Converses client.ensureClean.run talk (done (.ok ()))) :
    ∃ difference, talk = [client.ran ["diff", "HEAD"] difference] ∧
      difference.status.success = true ∧ difference.stdout.isEmpty = true := by
  obtain ⟨difference, first, second, rfl, hdemand, hrest⟩ := Converses.ok_bind h
  obtain ⟨rfl, hsuccess⟩ := ran_of_demand hdemand
  cases hempty : difference.stdout.isEmpty with
  | true =>
      rw [hempty] at hrest
      obtain ⟨rfl, -⟩ := converses_done.1 hrest
      exact ⟨difference, rfl, hsuccess, hempty⟩
  | false =>
      rw [hempty] at hrest
      cases (converses_done.1 hrest).2

theorem ran_of_head {found : WorkUnitId}
    (h : Converses client.head.run talk (done (.ok found))) :
    ∃ revision, talk = [client.ran ["rev-parse", "HEAD"] revision] ∧
      revision.status.success = true ∧ streamText revision.stdout = found.text := by
  obtain ⟨revision, first, second, rfl, hdemand, hrest⟩ := Converses.ok_bind h
  obtain ⟨rfl, hsuccess⟩ := ran_of_demand hdemand
  split at hrest
  · next id hid =>
    obtain ⟨rfl, hdone⟩ := converses_done.1 hrest
    cases hdone
    exact ⟨revision, rfl, hsuccess, (WorkUnitId.text_of_ofText hid).symm⟩
  · cases (converses_done.1 hrest).2

/-- What git was asked when a checkout came to an answer. -/
theorem ran_of_syncTo {id : WorkUnitId} {found : Option WorkUnitId}
    (h : Converses (client.syncTo id).run talk (done (.ok found))) :
    (found = none ∧ client.Unreachable id talk) ∨
      ∃ head, found = some head ∧ client.Reached id head.text talk := by
  obtain ⟨_, first, afterClean, rfl, hclean, hsynced⟩ := Converses.ok_bind h
  obtain ⟨difference, rfl, hdifference, hempty⟩ := ran_of_ensureClean hclean
  obtain ⟨branch, second, afterBranch, rfl, hswitch, hpulled⟩ := Converses.ok_bind hsynced
  obtain ⟨rfl, hbranch⟩ := ran_of_demand hswitch
  obtain ⟨pull, third, afterPull, rfl, hdemand, hchecked⟩ := Converses.ok_bind hpulled
  obtain ⟨rfl, hpull⟩ := ran_of_demand hdemand
  obtain ⟨checkout, fourth, afterCheckout, rfl, hinvoke, hlast⟩ := Converses.ok_bind hchecked
  obtain rfl := ran_of_invoke hinvoke
  cases hsuccess : checkout.status.success with
  | false =>
      rw [hsuccess] at hlast
      obtain ⟨rfl, hdone⟩ := converses_done.1 hlast
      cases hdone
      exact .inl ⟨rfl, difference, branch, pull, checkout, rfl, hdifference, hempty, hbranch,
        hpull, hsuccess⟩
  | true =>
      rw [hsuccess] at hlast
      obtain ⟨head, fifth, afterHead, rfl, hhead, hdone⟩ := Converses.ok_bind hlast
      obtain ⟨rfl, hvalue⟩ := converses_done.1 hdone
      cases hvalue
      obtain ⟨revision, rfl, hrevision, htext⟩ := ran_of_head hhead
      exact .inr ⟨head, rfl, difference, branch, pull, checkout, revision, rfl, hdifference,
        hempty, hbranch, hpull, hsuccess, hrevision, htext⟩

end GitClient

end Handoff
