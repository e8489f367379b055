import HueStream.Threading.Serving
import Mathlib.Data.List.Pairwise

/-! # The tickets of an executor

What the executor and its queue know of the tickets it has created, listed, run and discarded, and that
each step keeps it. -/

namespace HueStream.Threading

open HueStream.Lib

variable {Θ : Type} {θ θ' : Θ} {n : ℕ}

/-! ### What the executor knows -/

/-- The ticket that the innermost call of a thread has created and not listed yet. -/
def QueueExecutor.fresh (s : QueueExecutor Θ) (θ : Θ) : Option ℕ :=
  (s.calls θ).head?.bind fun c => c.point.fresh

/-- Two entries of the list are about different tickets. -/
def TicketInfo.Apart (info info' : TicketInfo) : Prop :=
  ∀ n, info.ticket = some n → info'.ticket ≠ some n

instance : Std.Symm TicketInfo.Apart := ⟨fun _ _ h n hn hn' => h n hn' hn⟩

/-- **What the executor knows of its tickets.** -/
structure Bookkept (s : QueueExecutor Θ) : Prop where
  listed : s.tickets.Sublist s.accepted
  once : s.accepted.Pairwise TicketInfo.Apart
  known : ∀ info ∈ s.accepted, ∀ n, info.ticket = some n → s.owned n = true
  created : ∀ n, s.owned n = true ∨ s.queue.wasScheduled n = true → n < s.queue.created
  scheduled : ∀ n, s.owned n = true → s.queue.wasScheduled n = true →
    ∃ info ∈ s.accepted, info.ticket = some n
  /-- What the queue still has is listed, or its function is over. -/
  accounted : ∀ info ∈ s.accepted, ∀ n, info.ticket = some n → s.queue.registered n = true →
    info ∈ s.tickets ∨ s.completed n = true
  ended : ∀ n, s.completed n = true → n ∈ s.queue.started
  running : ∀ n, s.owned n = true → n ∈ s.queue.started →
    s.completed n = true ∨ ∃ θ, s.queue.Runs θ n
  /-- What is not cancelable is only discarded through its operation. -/
  kept : ∀ info ∈ s.accepted, ∀ n, info.ticket = some n → info.waitOnCleanup = true →
    s.queue.registered n = true ∨ n ∈ s.queue.started ∨ s.canceled n = true
  fresh : ∀ θ n, s.fresh θ = some n → s.owned n = true ∧ s.queue.wasScheduled n = false ∧
    (s.queue.registered n = true ∨ s.canceled n = true) ∧
    ∀ info ∈ s.accepted, info.ticket ≠ some n
  apart : ∀ θ θ' n, s.fresh θ = some n → s.fresh θ' = some n → θ = θ'

namespace Bookkept

variable {s s' : QueueExecutor Θ} {info info' : TicketInfo}

theorem info_unique (h : Bookkept s) (hinfo : info ∈ s.accepted) (hinfo' : info' ∈ s.accepted)
    (hn : info.ticket = some n) (hn' : info'.ticket = some n) : info = info' := by
  by_contra hne
  exact h.once.forall hinfo hinfo' hne n hn hn'

variable [DecidableEq Θ] {label : QueueLabel Θ}

/-- **A step of the queue**, with what becomes of the list and of the notes of what has happened. -/
theorem of_queue (h : Bookkept s) (htracked : Tracked s.queue) (hstep : Step s.queue label s'.queue)
    (haccepted : s'.accepted = s.accepted) (howned : s'.owned = s.owned)
    (htickets : s'.tickets.Sublist s.tickets)
    (hlisted : ∀ info ∈ s.tickets, info ∈ s'.tickets ∨ ∀ n, info.ticket = some n →
      s'.completed n = true ∨ s'.queue.registered n = false)
    (hcompleted : ∀ n, s.completed n = true → s'.completed n = true)
    (hended : ∀ n, s'.completed n = true → s.completed n = true ∨ n ∈ s.queue.started)
    (hcanceled : ∀ n, s.canceled n = true → s'.canceled n = true)
    (hschedule : ∀ θ n, label = .scheduleTicket θ n → s.owned n = false)
    (hfinish : ∀ θ n, label = .finish θ → s.queue.running θ = some n → s.owned n = true →
      s'.completed n = true)
    (hdiscard : ∀ θ n, label = .discardTicket θ n → s'.canceled n = true ∨
      (∀ info ∈ s.accepted, info.ticket = some n → info.waitOnCleanup = false) ∧
        ∀ θ, s'.fresh θ ≠ some n)
    (hfresh : ∀ θ n, s'.fresh θ = some n → s.fresh θ = some n) : Bookkept s' where
  listed := by
    rw [haccepted]
    exact htickets.trans h.listed
  once := by rw [haccepted]; exact h.once
  known := by rw [haccepted, howned]; exact h.known
  created n hn := by
    refine lt_of_lt_of_le ?_ (created_of_step hstep)
    rcases hn with hn | hn
    · exact h.created n (.inl (howned ▸ hn))
    · rcases scheduled_of_step hstep hn with hn | hlt
      · exact h.created n (.inr hn)
      · exact hlt
  scheduled n hn hscheduled := by
    rw [howned] at hn
    rw [haccepted]
    refine h.scheduled n hn (wasScheduled_of_step hstep (fun θ hlabel => ?_) hscheduled)
    rw [hschedule θ n hlabel] at hn
    cases hn
  accounted info hinfo n hn hregistered := by
    rw [haccepted] at hinfo
    have hlt := h.created n (.inl (h.known info hinfo n hn))
    rcases h.accounted info hinfo n hn (registered_of_step hstep hregistered hlt) with hmem | hdone
    · rcases hlisted info hmem with hmem | hgone
      · exact .inl hmem
      · refine .inr ((hgone n hn).resolve_right ?_)
        rw [hregistered]
        simp
    · exact .inr (hcompleted n hdone)
  ended n hn := by
    refine mem_started_of_step hstep ?_
    rcases hended n hn with hdone | hstarted
    · exact h.ended n hdone
    · exact hstarted
  running n hn hstarted := by
    rw [howned] at hn
    by_cases hold : n ∈ s.queue.started
    · rcases h.running n hn hold with hdone | ⟨θ, hruns⟩
      · exact .inl (hcompleted n hdone)
      · rcases runs_of_step hstep hruns with hruns | ⟨rfl, hrunning⟩
        · exact .inr ⟨θ, hruns⟩
        · exact .inl (hfinish θ n rfl hrunning hn)
    · exact .inr (runs_of_started hstep hold hstarted)
  kept info hinfo n hn hwait := by
    rw [haccepted] at hinfo
    rcases h.kept info hinfo n hn hwait with hregistered | hstarted | hcancel
    · rcases htracked.registered_of_step hstep hregistered with hregistered | hstarted | ⟨θ, hlabel⟩
      · exact .inl hregistered
      · exact .inr (.inl (mem_started_of_step hstep hstarted))
      · rcases hdiscard θ n hlabel with hcancel | ⟨hnot, -⟩
        · exact .inr (.inr hcancel)
        · rw [hnot info hinfo hn] at hwait
          cases hwait
    · exact .inr (.inl (mem_started_of_step hstep hstarted))
    · exact .inr (.inr (hcanceled n hcancel))
  fresh θ n hn := by
    obtain ⟨hn', hscheduled, hregistered, hnot⟩ := h.fresh θ n (hfresh θ n hn)
    refine ⟨howned ▸ hn', ?_, ?_, haccepted ▸ hnot⟩
    · by_contra hnew
      rw [Bool.not_eq_false] at hnew
      rw [wasScheduled_of_step hstep (fun θ hlabel => ?_) hnew] at hscheduled
      · cases hscheduled
      · rw [hschedule θ n hlabel] at hn'
        cases hn'
    · rcases hregistered with hregistered | hcancel
      · rcases htracked.registered_of_step hstep hregistered with hregistered | hstarted | ⟨θ', hlabel⟩
        · exact .inl hregistered
        · rw [(htracked.tickets.spent hstarted).1] at hscheduled
          cases hscheduled
        · rcases hdiscard θ' n hlabel with hcancel | ⟨-, hnot⟩
          · exact .inr hcancel
          · exact absurd hn (hnot θ)
      · exact .inr (hcanceled n hcancel)
  apart θ θ' n hn hn' := h.apart θ θ' n (hfresh θ n hn) (hfresh θ' n hn')

/-- Nothing that the notes speak of changes. -/
theorem of_calls (h : Bookkept s) (htracked : Tracked s.queue) (hqueue : s'.queue = s.queue)
    (haccepted : s'.accepted = s.accepted) (howned : s'.owned = s.owned)
    (htickets : s'.tickets = s.tickets) (hcompleted : s'.completed = s.completed)
    (hcanceled : s'.canceled = s.canceled) (hfresh : ∀ θ n, s'.fresh θ = some n → s.fresh θ = some n)
    (θ : Θ) : Bookkept s' := by
  have hstep : Step s.queue (.go θ) s'.queue := hqueue ▸ .nothing (by simp)
  refine h.of_queue htracked hstep haccepted howned (htickets ▸ .refl _) ?_ ?_ ?_ ?_ (by simp) (by simp)
    (by simp) hfresh
  · rw [htickets]
    exact fun info hinfo => .inl hinfo
  · rw [hcompleted]
    exact fun n hn => hn
  · rw [hcompleted]
    exact fun n hn => .inl hn
  · rw [hcanceled]
    exact fun n hn => hn

/-- A ticket is created for a call. -/
theorem of_create (h : Bookkept s) (htracked : Tracked s.queue)
    (hqueue : s'.queue = s.queue.setTickets s.queue.register)
    (haccepted : s'.accepted = s.accepted)
    (howned : s'.owned = Function.update s.owned s.queue.created true)
    (htickets : s'.tickets = s.tickets) (hcompleted : s'.completed = s.completed)
    (hcanceled : s'.canceled = s.canceled) (hfresh : s'.fresh θ = some s.queue.created)
    (hothers : ∀ θ', θ' ≠ θ → s'.fresh θ' = s.fresh θ') : Bookkept s' := by
  have hlt : ∀ info ∈ s.accepted, ∀ n, info.ticket = some n → n < s.queue.created :=
    fun info hinfo n hn => h.created n (.inl (h.known info hinfo n hn))
  have hnew : s.queue.wasScheduled s.queue.created = false := by
    by_contra hnot
    rw [Bool.not_eq_false] at hnot
    exact absurd (h.created _ (.inr hnot)) (lt_irrefl _)
  have hcreated : s'.queue.created = s.queue.created + 1 := by rw [hqueue]; rfl
  have hscheduled : s'.queue.wasScheduled = s.queue.wasScheduled := by rw [hqueue]; rfl
  have hstarted : s'.queue.started = s.queue.started := by rw [hqueue]; rfl
  have hruns : ∀ θ n, s'.queue.Runs θ n ↔ s.queue.Runs θ n := fun θ n => by rw [hqueue]; rfl
  have hself : s'.queue.registered s.queue.created = true := by
    rw [hqueue]
    simp [Tickets.register]
  have hregistered : ∀ n, n ≠ s.queue.created → s'.queue.registered n = s.queue.registered n := by
    intro n hn
    rw [hqueue]
    simp [Tickets.register, hn]
  have hold : ∀ n, n ≠ s.queue.created → s'.owned n = s.owned n := by
    intro n hn
    rw [howned, Function.update_of_ne hn]
  have hother : ∀ θ' n, s'.fresh θ' = some n → n ≠ s.queue.created → s.fresh θ' = some n := by
    intro θ' n hn hne
    rcases eq_or_ne θ' θ with rfl | hθ
    · exact absurd (Option.some.inj (hn.symm.trans hfresh)) hne
    · rw [← hothers θ' hθ, hn]
  have hown : ∀ θ', s'.fresh θ' = some s.queue.created → θ' = θ := by
    intro θ' hn
    by_contra hθ
    rw [hothers θ' hθ] at hn
    exact absurd (h.created _ (.inl (h.fresh θ' _ hn).1)) (lt_irrefl _)
  refine ⟨by rw [haccepted, htickets]; exact h.listed, haccepted ▸ h.once, fun info hinfo n hn => ?_,
    fun n hn => ?_, fun n hn hn' => ?_, fun info hinfo n hn hn' => ?_, ?_, fun n hn hn' => ?_,
    fun info hinfo n hn hwait => ?_, fun θ' n hn => ?_, fun θ₁ θ₂ n hn hn' => ?_⟩
  · rw [haccepted] at hinfo
    rw [hold n (hlt info hinfo n hn).ne]
    exact h.known info hinfo n hn
  · rw [hcreated]
    rcases eq_or_ne n s.queue.created with rfl | hne
    · exact Nat.lt_succ_self _
    · rw [hold n hne, hscheduled] at hn
      exact (h.created n hn).trans (Nat.lt_succ_self _)
  · rw [hscheduled] at hn'
    have hne : n ≠ s.queue.created := by
      rintro rfl
      rw [hnew] at hn'
      cases hn'
    rw [hold n hne] at hn
    rw [haccepted]
    exact h.scheduled n hn hn'
  · rw [haccepted] at hinfo
    rw [hregistered n (hlt info hinfo n hn).ne] at hn'
    rw [htickets, hcompleted]
    exact h.accounted info hinfo n hn hn'
  · rw [hcompleted, hstarted]
    exact h.ended
  · rw [hstarted] at hn'
    rw [hold n (htracked.begun n hn').1.ne] at hn
    rw [hcompleted]
    simpa only [hruns] using h.running n hn hn'
  · rw [haccepted] at hinfo
    rw [hregistered n (hlt info hinfo n hn).ne, hstarted, hcanceled]
    exact h.kept info hinfo n hn hwait
  · rw [haccepted, hscheduled]
    rcases eq_or_ne n s.queue.created with rfl | hne
    · refine ⟨by rw [howned, Function.update_self], hnew, .inl hself, fun info hinfo hn' => ?_⟩
      exact absurd (hlt info hinfo _ hn') (lt_irrefl _)
    · rw [hold n hne, hregistered n hne, hcanceled]
      exact h.fresh θ' n (hother θ' n hn hne)
  · rcases eq_or_ne n s.queue.created with rfl | hne
    · rw [hown θ₁ hn, hown θ₂ hn']
    · exact h.apart θ₁ θ₂ n (hother θ₁ n hn hne) (hother θ₂ n hn' hne)

/-- The ticket of a call is listed and scheduled. -/
theorem of_post (h : Bookkept s) {ticket : Option ℕ} {waitOnCleanup : Bool}
    (hstep : ∀ n, ticket = some n → Step s.queue (.scheduleTicket θ n) s'.queue)
    (hnone : ticket = none → s'.queue = s.queue) (hticket : s.fresh θ = ticket)
    (haccepted : s'.accepted = s.accepted ++ [⟨ticket, waitOnCleanup⟩]) (howned : s'.owned = s.owned)
    (htickets : s'.tickets = s.tickets ++ [⟨ticket, waitOnCleanup⟩])
    (hcompleted : s'.completed = s.completed) (hcanceled : s'.canceled = s.canceled)
    (hfresh : s'.fresh θ = none) (hothers : ∀ θ', θ' ≠ θ → s'.fresh θ' = s.fresh θ') :
    Bookkept s' := by
  have hsame : s'.queue.registered = s.queue.registered ∧ s'.queue.started = s.queue.started ∧
      s'.queue.created = s.queue.created := by
    cases hn : ticket with
    | none => simp [hnone hn]
    | some n => exact schedule_same (hstep n hn)
  obtain ⟨hregistered, hstarted, hcreated⟩ := hsame
  have hscheduled : ∀ n, s'.queue.wasScheduled n = true →
      s.queue.wasScheduled n = true ∨ ticket = some n := by
    intro n hn
    cases hm : ticket with
    | none =>
      rw [hnone hm] at hn
      exact .inl hn
    | some m =>
      rcases eq_or_ne n m with rfl | hne
      · exact .inr rfl
      · refine .inl (wasScheduled_of_step (hstep m hm) (fun θ' hlabel => hne ?_) hn)
        cases hlabel
        rfl
  have hruns : ∀ θ n, s.queue.Runs θ n → s'.queue.Runs θ n := by
    intro θ' n hn
    cases hm : ticket with
    | none => rwa [hnone hm]
    | some m => exact (runs_of_step (hstep m hm) hn).resolve_right (by simp)
  have hother : ∀ θ' n, s'.fresh θ' = some n → θ' ≠ θ ∧ s.fresh θ' = some n := by
    intro θ' n hn
    have hθ : θ' ≠ θ := by
      rintro rfl
      rw [hfresh] at hn
      cases hn
    exact ⟨hθ, (hothers θ' hθ).symm.trans hn⟩
  have hnew : ∀ n, ticket = some n → s.owned n = true ∧ s.queue.wasScheduled n = false ∧
      (s.queue.registered n = true ∨ s.canceled n = true) ∧
      ∀ info ∈ s.accepted, info.ticket ≠ some n := fun n hn => h.fresh θ n (hticket.trans hn)
  have hmem : ∀ info, info ∈ s'.accepted → info ∈ s.accepted ∨ info = ⟨ticket, waitOnCleanup⟩ := by
    intro info hinfo
    rw [haccepted] at hinfo
    simpa using hinfo
  refine ⟨?_, ?_, fun info hinfo n hn => ?_, fun n hn => ?_, fun n hn hn' => ?_,
    fun info hinfo n hn hn' => ?_, ?_, fun n hn hn' => ?_, fun info hinfo n hn hwait => ?_,
    fun θ' n hn => ?_, fun θ₁ θ₂ n hn hn' => h.apart θ₁ θ₂ n (hother θ₁ n hn).2 (hother θ₂ n hn').2⟩
  · rw [haccepted, htickets]
    exact h.listed.append (.refl _)
  · rw [haccepted, List.pairwise_append]
    refine ⟨h.once, List.pairwise_singleton _ _, fun info hinfo info' hinfo' n hn hn' => ?_⟩
    obtain rfl := List.mem_singleton.mp hinfo'
    exact (hnew n hn').2.2.2 info hinfo hn
  · rw [howned]
    rcases hmem info hinfo with hinfo | rfl
    · exact h.known info hinfo n hn
    · exact (hnew n hn).1
  · rw [howned] at hn
    rw [hcreated]
    rcases hn with hn | hn
    · exact h.created n (.inl hn)
    · rcases hscheduled n hn with hn | hn
      · exact h.created n (.inr hn)
      · exact h.created n (.inl (hnew n hn).1)
  · rw [howned] at hn
    rw [haccepted]
    rcases hscheduled n hn' with hn' | hn'
    · obtain ⟨info, hinfo, hinfo'⟩ := h.scheduled n hn hn'
      exact ⟨info, List.mem_append_left _ hinfo, hinfo'⟩
    · exact ⟨_, List.mem_append_right _ (List.mem_singleton_self _), hn'⟩
  · rw [hregistered] at hn'
    rw [htickets, hcompleted]
    rcases hmem info hinfo with hinfo | rfl
    · exact (h.accounted info hinfo n hn hn').imp_left (List.mem_append_left _)
    · exact .inl (List.mem_append_right _ (List.mem_singleton_self _))
  · rw [hcompleted, hstarted]
    exact h.ended
  · rw [howned] at hn
    rw [hstarted] at hn'
    rw [hcompleted]
    exact (h.running n hn hn').imp_right fun ⟨θ, hθ⟩ => ⟨θ, hruns θ n hθ⟩
  · rw [hregistered, hstarted, hcanceled]
    rcases hmem info hinfo with hinfo | rfl
    · exact h.kept info hinfo n hn hwait
    · exact (hnew n hn).2.2.1.imp_right .inr
  · obtain ⟨hθ, hn⟩ := hother θ' n hn
    obtain ⟨howned', hnot, hregistered', hinfos⟩ := h.fresh θ' n hn
    have hne : ticket ≠ some n := fun heq => hθ (h.apart θ' θ n hn (hticket.trans heq))
    rw [howned, hregistered, hcanceled]
    refine ⟨howned', ?_, hregistered', fun info hinfo => ?_⟩
    · by_contra hcontra
      rw [Bool.not_eq_false] at hcontra
      rw [(hscheduled n hcontra).resolve_right hne] at hnot
      cases hnot
    · rcases hmem info hinfo with hinfo | rfl
      · exact hinfos info hinfo
      · exact hne

end Bookkept

end HueStream.Threading
