import Mathlib.Logic.Function.Basic
import SimpleSftpd.Cxx.Strings

/-! rate_limiter.cpp: requests counted by address in windows of a minute. Times are those of the
steady clock, in nanoseconds. -/

namespace SimpleSftpd

open Cxx

structure RateLimitEntry where
  request_count : ℕ := 0
  window_start : ℕ := 0

def minute : ℕ := 60000000000

namespace RateLimitEntry

def Expired (e : RateLimitEntry) (now : ℕ) : Prop := e.window_start = 0 ∨ e.window_start + minute ≤ now

instance (e : RateLimitEntry) (now : ℕ) : Decidable (e.Expired now) := inferInstanceAs (Decidable (_ ∨ _))

def refresh (e : RateLimitEntry) (now : ℕ) : RateLimitEntry := if e.Expired now then ⟨0, now⟩ else e

end RateLimitEntry

structure FTPRateLimiter where
  max_requests_per_minute_ : Int := 60
  max_connections_per_ip_ : Int := 10
  rate_limits_ : Str → RateLimitEntry := fun _ => {}

namespace FTPRateLimiter

variable (l : FTPRateLimiter)

def isAllowed (client_ip : Str) (now : ℕ) : Bool × FTPRateLimiter :=
  let entry := (l.rate_limits_ client_ip).refresh now
  (entry.request_count < l.max_requests_per_minute_,
    { l with rate_limits_ := Function.update l.rate_limits_ client_ip entry })

def recordRequest (client_ip : Str) (now : ℕ) : FTPRateLimiter :=
  let entry := (l.rate_limits_ client_ip).refresh now
  { l with
    rate_limits_ := Function.update l.rate_limits_ client_ip { entry with request_count :=
      entry.request_count + 1 } }

def setRateLimit (max_requests_per_minute : Int) : FTPRateLimiter :=
  { l with max_requests_per_minute_ := max_requests_per_minute }

def setConnectionLimit (max_connections_per_ip : Int) : FTPRateLimiter :=
  { l with max_connections_per_ip_ := max_connections_per_ip }

end FTPRateLimiter

structure Attempt where
  client_ip : Str
  checked : ℕ
  recorded : ℕ

structure Window where
  start : ℕ
  requests : List ℕ

def Window.recorded (ws : List Window) (t : ℕ) : ℕ :=
  (ws.map fun w => w.requests.countP fun r => t ≤ r ∧ r < t + minute).sum

structure Admissions where
  limiter : FTPRateLimiter
  answers : Str → List Bool := fun _ => []
  windows : Str → List Window := fun _ => []

namespace Admissions

def start (limit : Int) : Admissions := { limiter := FTPRateLimiter.setRateLimit {} limit }

def reset (e : RateLimitEntry) (now : ℕ) (ws : List Window) : List Window :=
  if e.Expired now then ⟨now, []⟩ :: ws else ws

def request (now : ℕ) : List Window → List Window
  | [] => []
  | w :: ws => { w with requests := now :: w.requests } :: ws

def attempt (v : Admissions) (a : Attempt) : Admissions :=
  let ip := a.client_ip
  let (allowed, limiter) := v.limiter.isAllowed ip a.checked
  let answers := Function.update v.answers ip (v.answers ip ++ [allowed])
  let windows := reset (v.limiter.rate_limits_ ip) a.checked (v.windows ip)
  if allowed then
    ⟨limiter.recordRequest ip a.recorded, answers, Function.update v.windows ip
      (request a.recorded (reset (limiter.rate_limits_ ip) a.recorded windows))⟩
  else ⟨limiter, answers, Function.update v.windows ip windows⟩

def run (limit : Int) (as : List Attempt) : Admissions := as.foldl attempt (start limit)

def recordedFrom (v : Admissions) (client_ip : Str) (t : ℕ) : ℕ := Window.recorded (v.windows client_ip) t

end Admissions

def Timely : ℕ → List Attempt → Prop
  | _, [] => True
  | now, a :: as => 0 < a.checked ∧ now ≤ a.checked ∧ a.checked ≤ a.recorded ∧ Timely a.recorded as

structure Spaced (limit : ℕ) (ws : List Window) : Prop where
  limited : ∀ w ∈ ws, w.requests.length ≤ limit
  within : ∀ w ∈ ws, ∀ r ∈ w.requests, w.start ≤ r ∧ r < w.start + minute
  spaced : ws.Pairwise fun w w' => w'.start + minute ≤ w.start

namespace Spaced

variable {limit : ℕ} {w : Window} {ws : List Window} {t : ℕ}

lemma tail (h : Spaced limit (w :: ws)) : Spaced limit ws where
  limited := fun w' hw' => h.limited w' (List.mem_cons_of_mem _ hw')
  within := fun w' hw' => h.within w' (List.mem_cons_of_mem _ hw')
  spaced := h.spaced.of_cons

lemma recorded_cons : Window.recorded (w :: ws) t = (w.requests.countP fun r => t ≤ r ∧
    r < t + minute) + Window.recorded ws t := List.sum_cons

lemma recorded_head (h : Spaced limit (w :: ws)) :
    (w.requests.countP fun r => decide (t ≤ r ∧ r < t + minute)) ≤ limit :=
  List.countP_le_length.trans (h.limited w List.mem_cons_self)

lemma recorded_over (h : Spaced limit ws) (hover : ∀ w ∈ ws, w.start + minute ≤ t) : Window.recorded ws t = 0 := by
  induction ws with
  | nil => rfl
  | cons w ws ih =>
    have hnone : (w.requests.countP fun r => decide (t ≤ r ∧ r < t + minute)) = 0 := by
      apply List.countP_eq_zero.2
      intro r hr
      have hlt := (h.within w List.mem_cons_self r hr).2
      have hend := hover w List.mem_cons_self
      simp only [decide_eq_true_eq]
      omega
    rw [recorded_cons, hnone, ih h.tail fun w' hw' => hover w' (List.mem_cons_of_mem _ hw')]

lemma recorded_started (h : Spaced limit ws) (hstarted : ∀ w ∈ ws, w.start ≤ t) :
    Window.recorded ws t ≤ limit := by
  cases ws with
  | nil => exact Nat.zero_le _
  | cons w ws =>
    have hover : Window.recorded ws t = 0 := by
      apply h.tail.recorded_over
      intro w' hw'
      have hspace := List.rel_of_pairwise_cons h.spaced hw'
      have hstart := hstarted w List.mem_cons_self
      omega
    rw [recorded_cons, hover]
    exact h.recorded_head

lemma recorded_le (h : Spaced limit ws) : Window.recorded ws t ≤ 2 * limit := by
  induction ws with
  | nil => exact Nat.zero_le _
  | cons w ws ih =>
    rw [recorded_cons]
    by_cases hlate : t + minute ≤ w.start
    · have hnone : (w.requests.countP fun r => decide (t ≤ r ∧ r < t + minute)) = 0 := by
        apply List.countP_eq_zero.2
        intro r hr
        have hle := (h.within w List.mem_cons_self r hr).1
        simp only [decide_eq_true_eq]
        omega
      rw [hnone, Nat.zero_add]
      exact ih h.tail
    · have hrest : Window.recorded ws t ≤ limit := by
        apply h.tail.recorded_started
        intro w' hw'
        have hspace := List.rel_of_pairwise_cons h.spaced hw'
        omega
      have hhead := h.recorded_head (t := t)
      omega

end Spaced

structure Tracks (limit : ℕ) (e : RateLimitEntry) (ws : List Window) (now : ℕ) : Prop where
  spaced : Spaced limit ws
  newest : ws = [] ∧ e.window_start = 0 ∨ ∃ w rest, ws = w :: rest ∧ e.window_start = w.start ∧ 0 < w.start ∧
    w.start ≤ now ∧ e.request_count = w.requests.length

namespace Tracks

variable {limit : ℕ} {e : RateLimitEntry} {ws : List Window} {now t : ℕ}

lemma later (h : Tracks limit e ws now) (hle : now ≤ t) : Tracks limit e ws t := by
  refine ⟨h.spaced, h.newest.imp_right ?_⟩
  rintro ⟨w, rest, hws, hstart, hpos, hnow, hcount⟩
  exact ⟨w, rest, hws, hstart, hpos, hnow.trans hle, hcount⟩

lemma refresh (h : Tracks limit e ws now) (hpos : 0 < t) (hle : now ≤ t) :
    Tracks limit (e.refresh t) (Admissions.reset e t ws) t ∧
      (e.refresh t).window_start ≠ 0 ∧ t < (e.refresh t).window_start + minute := by
  unfold RateLimitEntry.refresh Admissions.reset
  by_cases hexpired : e.Expired t
  · rw [if_pos hexpired, if_pos hexpired]
    refine ⟨⟨⟨?_, ?_, ?_⟩, .inr ⟨_, _, rfl, rfl, hpos, le_rfl, rfl⟩⟩, hpos.ne',
      Nat.lt_add_of_pos_right (by decide)⟩
    · intro w hw
      rcases List.mem_cons.1 hw with rfl | hw
      · exact Nat.zero_le _
      · exact h.spaced.limited w hw
    · intro w hw
      rcases List.mem_cons.1 hw with rfl | hw
      · exact List.forall_mem_nil _
      · exact h.spaced.within w hw
    · refine List.pairwise_cons.2 ⟨fun w' hw' => ?_, h.spaced.spaced⟩
      rcases h.newest with ⟨rfl, _⟩ | ⟨w, rest, rfl, hstart, hw, _, _⟩
      · cases hw'
      have hover : w.start + minute ≤ t := by
        rcases hexpired with hzero | hover
        · omega
        · rwa [hstart] at hover
      rcases List.mem_cons.1 hw' with rfl | hw'
      · exact hover
      · have hspace := List.rel_of_pairwise_cons h.spaced.spaced hw'
        simp only
        omega
  · rw [if_neg hexpired, if_neg hexpired]
    obtain ⟨hzero, hopen⟩ := not_or.1 hexpired
    exact ⟨h.later hle, hzero, not_le.1 hopen⟩

lemma request (h : Tracks limit e ws t) (hstart : e.window_start ≠ 0) (hopen : t < e.window_start + minute)
    (hroom : e.request_count < limit) :
    Tracks limit { e with request_count := e.request_count + 1 } (Admissions.request t ws) t := by
  rcases h.newest with ⟨_, hzero⟩ | ⟨w, rest, rfl, hnewest, hpos, hle, hcount⟩
  · exact absurd hzero hstart
  refine ⟨⟨?_, ?_, ?_⟩, .inr ⟨_, rest, rfl, hnewest, hpos, hle, congrArg (· + 1) hcount⟩⟩
  · intro w' hw'
    rcases List.mem_cons.1 hw' with rfl | hw'
    · simp only [List.length_cons]
      omega
    · exact h.spaced.tail.limited w' hw'
  · intro w' hw'
    rcases List.mem_cons.1 hw' with rfl | hw'
    · refine List.forall_mem_cons.2 ⟨⟨hle, ?_⟩, h.spaced.within w List.mem_cons_self⟩
      simp only
      omega
    · exact h.spaced.tail.within w' hw'
  · exact List.pairwise_cons.2 ⟨(List.pairwise_cons.1 h.spaced.spaced).1, h.spaced.spaced.of_cons⟩

end Tracks

namespace Admissions

variable {limit : ℕ} {v v' : Admissions} {now : ℕ} {a : Attempt} {as : List Attempt} {ip : Str}

structure Sound (limit : ℕ) (now : ℕ) (v : Admissions) : Prop where
  bounded : v.limiter.max_requests_per_minute_ = limit
  tracks : ∀ ip, Tracks limit (v.limiter.rate_limits_ ip) (v.windows ip) now

lemma attempt_sound (hv : v.Sound limit now) (hpos : 0 < a.checked) (hnow : now ≤ a.checked)
    (hle : a.checked ≤ a.recorded) : (v.attempt a).Sound limit a.recorded := by
  obtain ⟨hchecked, hstarted, _⟩ := (hv.tracks a.client_ip).refresh hpos hnow
  have hentry : ((v.limiter.isAllowed a.client_ip a.checked).2.rate_limits_ a.client_ip) =
      (v.limiter.rate_limits_ a.client_ip).refresh a.checked := Function.update_self _ _ _
  unfold attempt
  dsimp only
  split
  · rename_i hallowed
    have hroom : ((v.limiter.rate_limits_ a.client_ip).refresh a.checked).request_count < limit := by
      have hlt := of_decide_eq_true hallowed
      rw [hv.bounded] at hlt
      exact Int.ofNat_lt.1 hlt
    obtain ⟨hrecorded, hstarted', hopen⟩ := hchecked.refresh (hpos.trans_le hle) hle
    have hroom' :
        (((v.limiter.rate_limits_ a.client_ip).refresh a.checked).refresh a.recorded).request_count < limit := by
      rw [RateLimitEntry.refresh]
      split
      · exact (Nat.zero_le _).trans_lt hroom
      · exact hroom
    refine ⟨hv.bounded, fun ip => ?_⟩
    by_cases hip : ip = a.client_ip
    · subst hip
      simp only [FTPRateLimiter.recordRequest, Function.update_self, hentry]
      exact hrecorded.request hstarted' hopen hroom'
    · simp only [FTPRateLimiter.recordRequest, FTPRateLimiter.isAllowed, Function.update_of_ne hip]
      exact (hv.tracks ip).later (hnow.trans hle)
  · refine ⟨hv.bounded, fun ip => ?_⟩
    by_cases hip : ip = a.client_ip
    · subst hip
      simp only [Function.update_self, hentry]
      exact hchecked.later hle
    · simp only [FTPRateLimiter.isAllowed, Function.update_of_ne hip]
      exact (hv.tracks ip).later (hnow.trans hle)

lemma start_sound (limit : ℕ) : (start limit).Sound limit 0 where
  bounded := rfl
  tracks _ := ⟨⟨List.forall_mem_nil _, List.forall_mem_nil _, .nil⟩, .inl ⟨rfl, rfl⟩⟩

lemma foldl_sound (has : Timely now as) (hv : v.Sound limit now) :
    ∃ last, (as.foldl attempt v).Sound limit last := by
  induction as generalizing v now with
  | nil => exact ⟨now, hv⟩
  | cons a as ih =>
    obtain ⟨hpos, hnow, hle, hrest⟩ := has
    exact ih hrest (attempt_sound hv hpos hnow hle)

structure Alike (ip : Str) (v v' : Admissions) : Prop where
  limit : v.limiter.max_requests_per_minute_ = v'.limiter.max_requests_per_minute_
  entry : v.limiter.rate_limits_ ip = v'.limiter.rate_limits_ ip
  answers : v.answers ip = v'.answers ip

lemma Alike.attempt (h : Alike ip v v') (ha : a.client_ip = ip) : Alike ip (v.attempt a) (v'.attempt a) := by
  subst ha
  have hallowed :
      (v.limiter.isAllowed a.client_ip a.checked).1 = (v'.limiter.isAllowed a.client_ip a.checked).1 := by
    simp only [FTPRateLimiter.isAllowed, h.limit, h.entry]
  unfold Admissions.attempt
  dsimp only
  rw [← hallowed]
  split
  · refine ⟨h.limit, ?_, ?_⟩
    · simp only [FTPRateLimiter.recordRequest, FTPRateLimiter.isAllowed, Function.update_self, h.entry]
    · simp only [Function.update_self, h.answers]
  · refine ⟨h.limit, ?_, ?_⟩
    · simp only [FTPRateLimiter.isAllowed, Function.update_self, h.entry]
    · simp only [Function.update_self, h.answers]

lemma attempt_other (ha : a.client_ip ≠ ip) : Alike ip (v.attempt a) v := by
  unfold attempt
  dsimp only
  split
  · refine ⟨rfl, ?_, Function.update_of_ne ha.symm _ _⟩
    simp only [FTPRateLimiter.recordRequest, FTPRateLimiter.isAllowed, Function.update_of_ne ha.symm]
  · exact ⟨rfl, Function.update_of_ne ha.symm _ _, Function.update_of_ne ha.symm _ _⟩

lemma foldl_alike (h : Alike ip v v') :
    Alike ip (as.foldl attempt v) ((as.filter fun a => a.client_ip = ip).foldl attempt v') := by
  induction as generalizing v v' with
  | nil => exact h
  | cons a as ih =>
    by_cases ha : a.client_ip = ip
    · rw [List.filter_cons_of_pos (by simpa using ha)]
      exact ih (h.attempt ha)
    · rw [List.filter_cons_of_neg (by simpa using ha)]
      have hother := attempt_other (v := v) ha
      exact ih ⟨hother.limit.trans h.limit, hother.entry.trans h.entry, hother.answers.trans h.answers⟩

end Admissions

theorem requests_are_limited (limit : ℕ) {as : List Attempt} (has : Timely 0 as) (client_ip : Str) :
    (∀ t, (Admissions.run limit as).recordedFrom client_ip t ≤ 2 * limit) ∧
      (∀ w ∈ (Admissions.run limit as).windows client_ip, w.requests.length ≤ limit) ∧
      (Admissions.run limit as).answers client_ip =
        (Admissions.run limit (as.filter fun a => a.client_ip = client_ip)).answers client_ip := by
  obtain ⟨last, hsound⟩ := Admissions.foldl_sound has (Admissions.start_sound limit)
  have hspaced := (hsound.tracks client_ip).spaced
  refine ⟨fun t => hspaced.recorded_le, hspaced.limited, ?_⟩
  have halike : Admissions.Alike client_ip (Admissions.run limit as)
      (Admissions.run limit (as.filter fun a => a.client_ip = client_ip)) := Admissions.foldl_alike ⟨rfl, rfl, rfl⟩
  exact halike.answers

def Admissions.sampleAttempts : List Attempt :=
  [⟨"a", 1, 1⟩, ⟨"b", 2, 2⟩, ⟨"a", minute, minute⟩, ⟨"a", minute, minute + 1⟩, ⟨"a", minute + 2, minute + 2⟩]

theorem requests_are_limited_sample :
    (Admissions.run 2 Admissions.sampleAttempts).answers "a" =
      (Admissions.run 2 (Admissions.sampleAttempts.filter fun a => a.client_ip = "a")).answers "a" := by
  have htimely : Timely 0 Admissions.sampleAttempts := by
    simp only [Admissions.sampleAttempts, Timely, minute]
    decide
  exact (requests_are_limited 2 htimely "a").2.2

end SimpleSftpd
