import Mathlib.Data.List.Induction

/-!
# The last update wins

A place that updates are written to one after the other, each of which tells what is to
be there or says nothing of it.  In the end the place holds what the last one said (`written`).

When the updates that speak of the place carry versions that never go back, this is something
that an update of the newest version said: however many updates there were and whichever of
them were left out (`exists_newest`).
-/

namespace SiliconOffice
namespace Library

variable {Update : Type*} {ν : Type*} {tells : Update → Option ν} {version : Update → Option ℕ}
  {log : List Update} {before : ν}

/-- What is there after the updates. -/
def written (tells : Update → Option ν) (before : ν) (log : List Update) : ν :=
  log.foldl (fun value update => (tells update).getD value) before

theorem written_append (log later : List Update) :
    written tells before (log ++ later) = written tells (written tells before log) later :=
  List.foldl_append

theorem written_concat (log : List Update) (update : Update) :
    written tells before (log ++ [update]) = (tells update).getD (written tells before log) :=
  written_append log [update]

/-- **The newest version is what is there in the end.** -/
theorem exists_newest {newest : ℕ} (hspeaks : ∀ update ∈ log, (version update).isSome →
      (tells update).isSome)
    (hsilent : ∀ update ∈ log, version update = none → tells update = none)
    (hforward : log.Pairwise fun earlier later => ∀ older newer,
      version later = some older → version earlier = some newer → newer ≤ older)
    (hbound : ∀ update ∈ log, ∀ older, version update = some older → older ≤ newest)
    (hnewest : ∃ update ∈ log, version update = some newest) :
    ∃ update ∈ log, version update = some newest ∧
      tells update = some (written tells before log) := by
  induction log using List.reverseRecOn with
  | nil =>
      obtain ⟨update, hupdate, -⟩ := hnewest
      cases hupdate
  | append_singleton earlier last ih =>
      have hlast : last ∈ earlier ++ [last] :=
        List.mem_append_right _ (List.mem_singleton_self last)
      obtain ⟨hbefore, -, hafter⟩ := List.pairwise_append.mp hforward
      rw [written_concat]
      cases hversion : version last with
      | some number =>
          -- the last update speaks of the place: nothing before it was newer
          obtain ⟨value, hvalue⟩ := Option.isSome_iff_exists.mp
            (hspeaks last hlast (hversion ▸ rfl))
          have hle : number ≤ newest := hbound last hlast number hversion
          have hge : newest ≤ number := by
            obtain ⟨update, hupdate, hsame⟩ := hnewest
            rcases List.mem_append.mp hupdate with hmem | hmem
            · exact hafter update hmem last (List.mem_singleton_self last) number newest hversion
                hsame
            · rw [List.mem_singleton.mp hmem, hversion] at hsame
              exact Nat.le_of_eq (Option.some.inj hsame).symm
          refine ⟨last, hlast, hversion.trans (congrArg some (Nat.le_antisymm hle hge)), ?_⟩
          rw [hvalue]
          rfl
      | none =>
          rw [hsilent last hlast hversion, Option.getD_none]
          have hfound : ∃ update ∈ earlier, version update = some newest := by
            obtain ⟨update, hupdate, hsame⟩ := hnewest
            rcases List.mem_append.mp hupdate with hmem | hmem
            · exact ⟨update, hmem, hsame⟩
            · rw [List.mem_singleton.mp hmem, hversion] at hsame
              cases hsame
          obtain ⟨update, hupdate, hnumber, htells⟩ := ih
            (fun other hother => hspeaks other (List.mem_append_left _ hother))
            (fun other hother => hsilent other (List.mem_append_left _ hother)) hbefore
            (fun other hother => hbound other (List.mem_append_left _ hother)) hfound
          exact ⟨update, List.mem_append_left _ hupdate, hnumber, htells⟩

end Library
end SiliconOffice
