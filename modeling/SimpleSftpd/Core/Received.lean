import SimpleSftpd.Core.Retrieved

namespace SimpleSftpd

open Cxx Interaction Prog Ledger

namespace Ledger

variable {g g' g'' : Ledger} {out out' : Str}

structure Receives (g g' : Ledger) : Prop where
  completed : g'.completed = g.completed
  target : g'.target = g.target
  prepared : g'.prepared = g.prepared
  stuck : g'.stuck = g.stuck

lemma Receives.refl : Receives g g := ⟨rfl, rfl, rfl, rfl⟩

lemma Receives.trans (h : Receives g g') (h' : Receives g' g'') : Receives g g'' :=
  ⟨h'.completed.trans h.completed, h'.target.trans h.target, h'.prepared.trans h.prepared, h'.stuck.trans h.stuck⟩

structure Writes (g g' : Ledger) (out : Str) : Prop where
  ended : g.lost = true → g'.written = g.written ∧ g'.lost = true
  whole : g.lost = false → g'.lost = false → g'.written = g.written ++ out
  cut : g.lost = false → g'.lost = true → g'.written.length < g.written.length + out.length

lemma Writes.same (hw : g'.written = g.written) (hl : g'.lost = g.lost) : Writes g g' [] := by
  refine ⟨fun h => ⟨hw, hl.trans h⟩, fun _ _ => by rw [hw, List.append_nil], fun h h' => ?_⟩
  exact absurd (h.symm.trans (hl.symm.trans h')) Bool.false_ne_true

lemma Writes.trans (h : Writes g g' out) (h' : Writes g' g'' out') : Writes g g'' (out ++ out') := by
  refine ⟨fun hg => ?_, fun hg hg'' => ?_, fun hg hg'' => ?_⟩
  · obtain ⟨hw, hl⟩ := h.ended hg
    obtain ⟨hw', hl'⟩ := h'.ended hl
    exact ⟨hw'.trans hw, hl'⟩
  · have hg' : g'.lost = false := by
      by_contra hlost
      exact absurd ((h'.ended (by simpa using hlost)).2.symm.trans hg'') (by decide)
    rw [h'.whole hg' hg'', h.whole hg hg', List.append_assoc]
  · rw [List.length_append]
    cases hg' : g'.lost with
    | true =>
      have hcut := h.cut hg hg'
      rw [(h'.ended hg').1]
      omega
    | false =>
      have hcut := h'.cut hg' hg''
      rw [h.whole hg hg', List.length_append] at hcut
      omega

lemma Writes.whole_iff (h : Writes g g' out) (hg : g.lost = false) (hw : g.written = []) :
    g'.written = out ↔ g'.lost = false := by
  cases hl : g'.lost with
  | false =>
    have hall := h.whole hg hl
    rw [hw, List.nil_append] at hall
    exact iff_of_true hall rfl
  | true =>
    have hcut := h.cut hg hl
    refine iff_of_false (fun he => ?_) Bool.noConfusion
    rw [he, hw, List.length_nil, Nat.zero_add] at hcut
    exact lt_irrefl _ hcut

end Ledger

namespace Session

variable {env : Service} {s : Session} {me : SessionId} {w : World}

/-- A write in a file that is `good` or not, as its loop sees it: what was to be written, and
whether the file is good after it. -/
structure WriteRun (g g' : Ledger) (data : Str) (good : Bool) : Prop where
  good : good = !g'.lost
  writes : Writes g g' data
  receives : Receives g g'
  received : g'.received = g.received
  eof : g'.eof = g.eof
  broken : g'.broken = g.broken

lemma WriteRun.idle {g : Ledger} {data : Str} {good : Bool} (hgood : good = !g.lost) (hbad : good = false) :
    WriteRun g g data good := by
  have hlost : g.lost = true := by simpa [hgood] using hbad
  refine ⟨hgood, ⟨fun _ => ⟨rfl, hlost⟩, fun h => ?_, fun h => ?_⟩, .refl, rfl, rfl, rfl⟩
  · exact absurd (hlost.symm.trans h) (by decide)
  · exact absurd (hlost.symm.trans h) (by decide)

lemma WriteRun.step {g : Ledger} {data : Str} {good : Bool} (hgood : good = !g.lost) (hyes : good = true)
    (hdata : data ≠ []) (ok : Bool) :
    WriteRun g (if ok then { g with written := g.written ++ data } else { g with lost := true }) data ok := by
  have hkept : g.lost = false := by simpa [hgood] using hyes
  have hpositive : 0 < data.length := List.length_pos_of_ne_nil hdata
  cases ok with
  | true =>
    refine ⟨by simp [hkept], ⟨fun h => ?_, fun _ _ => rfl, fun _ h => ?_⟩, ⟨rfl, rfl, rfl, rfl⟩, rfl, rfl, rfl⟩
    · exact absurd (hkept.symm.trans h) Bool.false_ne_true
    · exact absurd (hkept.symm.trans h) Bool.false_ne_true
  | false =>
    refine ⟨rfl, ⟨fun _ => ⟨rfl, rfl⟩, fun _ h => ?_, fun _ _ => ?_⟩, ⟨rfl, rfl, rfl, rfl⟩, rfl, rfl, rfl⟩
    · exact absurd h Bool.noConfusion
    · change g.written.length < _
      omega

lemma write_logged {f : OutFile} {data : Str} {g : Ledger} (hf : f.good = !g.lost) (hdata : data ≠ []) :
    Meets transfers (f.write data) (fun f' g' => WriteRun g g' data f'.good) g := by
  refine meets_ite.2 ⟨fun hbad => (meets_pure _).2 (.idle hf (by simpa using hbad)), fun hgood => ?_⟩
  refine meets_bind.2 ((meets_logged _).2 fun ok _ => ?_)
  exact (meets_pure _).2 (.step hf (by simpa using hgood) hdata ok)

lemma next_recv (g : Ledger) (fd : Fd) {chunk : Str} (h : chunk ≠ []) (r : Unit) :
    g.next (.recv fd (some chunk)) r = { g with received := g.received ++ [chunk] } := by
  cases chunk with
  | nil => exact absurd rfl h
  | cons c cs => rfl

lemma next_recv_end (g : Ledger) (fd : Fd) (orderly : Bool) (r : Unit) :
    g.next (.recv fd (if orderly then some [] else none)) r =
      { g with eof := g.eof || orderly, broken := g.broken || !orderly } := by
  cases orderly <;> simp [next]

structure ReceivesAll (peer : Peer) (g g' : Ledger) (chunks : List Str) (out : Str) : Prop where
  receives : Receives g g'
  received : g'.received = g.received ++ chunks
  eof : g'.eof = (g.eof || peer.orderly)
  broken : g'.broken = (g.broken || !peer.orderly)
  writes : Writes g g' out

lemma WriteRun.receivesAll {peer : Peer} {g g₁ g' : Ledger} {chunk out out' : Str}
    {chunks : List Str} {good : Bool}
    (h₁ : WriteRun { g with received := g.received ++ [chunk] } g₁ out good)
    (h : ReceivesAll peer g₁ g' chunks out') : ReceivesAll peer g g' (chunk :: chunks) (out ++ out') := by
  have hreceives := h₁.receives.trans h.receives
  have hwrites := h₁.writes.trans h.writes
  refine ⟨⟨hreceives.completed, hreceives.target, hreceives.prepared, hreceives.stuck⟩, ?_, ?_, ?_, ?_⟩
  · rw [h.received, h₁.received, List.append_assoc]
    rfl
  · rw [h.eof, h₁.eof]
  · rw [h.broken, h₁.broken]
  · exact ⟨hwrites.ended, hwrites.whole, hwrites.cut⟩

lemma receiveLoop_logged (rate : Int) (start : ℕ) (fd : Fd) (peer : Peer) (chunks : List Str) :
    (∀ chunk ∈ chunks, chunk ≠ []) → ∀ (n : ℕ) (f : OutFile) (g : Ledger), f.good = (!g.lost) →
      Meets transfers (receiveLoop rate start fd peer chunks n f)
        (fun _ g' => ReceivesAll peer g g' chunks chunks.flatten) g := by
  induction chunks with
  | nil =>
    intro _ n f g _
    refine meets_bind.2 ((meets_logged _).2 fun r _ => (meets_pure _).2 ?_)
    rw [next_recv_end]
    exact ⟨⟨rfl, rfl, rfl, rfl⟩, by simp, rfl, rfl, .same rfl rfl⟩
  | cons chunk chunks ih =>
    intro hchunks n f g hf
    have hchunk : chunk ≠ [] := hchunks chunk List.mem_cons_self
    refine meets_bind.2 ((meets_logged _).2 fun r _ => ?_)
    rw [next_recv g fd hchunk]
    have hwrite := write_logged (f := f) (g := { g with received := g.received ++ [chunk] }) hf hchunk
    refine meets_bind.2 (applyThrottle_logged _ _ _ (meets_bind.2 (hwrite.mono fun f' g₁ h₁ => ?_)))
    have hrest (c : Str) (hc : c ∈ chunks) : c ≠ [] := hchunks c (List.mem_cons_of_mem _ hc)
    exact (ih hrest _ f' g₁ h₁.good).mono fun _ g' h => h₁.receivesAll h

lemma inflate_logged {zlib : Zlib} {made : List (Str × Bool)} {g : Ledger} {P : Option Str → Ledger → Prop}
    (h : P (zlib.inflated made) g) : Meets transfers (inflate zlib made) P g := by
  unfold inflate
  unfold Zlib.inflated at h
  split
  · rename_i output hz
    exact (meets_pure _).2 (by simpa [hz] using h)
  · rename_i hz
    exact (meets_pure _).2 (by simpa [hz] using h)
  · exact meets_throw _

/-- The two ways the MODE Z loop ends: all of `chunks` was received and made into `out`, or the
connection broke or what came in could not be decompressed. -/
structure Inflated (zlib : Zlib) (peer : Peer) (g g' : Ledger) (made : List (Str × Bool)) (chunks : List Str)
    (ok : Bool) : Prop where
  done : ok = true → peer.orderly = true ∧ ∃ out, Zlib.stream zlib.inflated made chunks = some out ∧
    ReceivesAll peer g g' chunks out
  failed : ok = false → Receives g g' ∧ (g'.broken = true ∨
    ∃ cs, g'.received = g.received ++ cs ∧ Zlib.stream zlib.inflated made cs = none)

lemma writeAny_logged {f : OutFile} (plain : Str) {g : Ledger} (hf : f.good = !g.lost) :
    Meets transfers (if plain = [] then return f else f.write plain : Io OutFile)
      (fun f' g' => WriteRun g g' plain f'.good) g := by
  refine meets_ite.2 ⟨fun hnil => (meets_pure _).2 ⟨hf, ?_, .refl, rfl, rfl, rfl⟩,
    fun hsome => write_logged hf hsome⟩
  rw [hnil]
  exact .same rfl rfl

lemma inflateLoop_logged (zlib : Zlib) (rate : Int) (start : ℕ) (fd : Fd) (peer : Peer) (chunks : List Str) :
    (∀ chunk ∈ chunks, chunk ≠ []) → ∀ (made : List (Str × Bool)) (n : ℕ) (f : OutFile) (g : Ledger),
      f.good = (!g.lost) → Meets transfers (inflateLoop zlib rate start fd peer chunks made n f)
        (fun ok g' => Inflated zlib peer g g' made chunks ok) g := by
  induction chunks with
  | nil =>
    intro _ made n f g hf
    refine meets_bind.2 ((meets_logged _).2 fun r _ => ?_)
    rw [next_recv_end]
    refine meets_ite.2 ⟨fun hbroken => (meets_pure _).2 ⟨fun h => (by cases h), fun _ => ?_⟩, fun horderly => ?_⟩
    · exact ⟨⟨rfl, rfl, rfl, rfl⟩, .inl (by simp [hbroken])⟩
    · have hpeer : peer.orderly = true := by simpa using horderly
      refine meets_bind.2 (inflate_logged ?_)
      cases hz : zlib.inflated (made ++ [([], true)]) with
      | none =>
        refine (meets_pure _).2 ⟨fun h => (by cases h), fun _ => ?_⟩
        refine ⟨⟨rfl, rfl, rfl, rfl⟩, .inr ⟨[], by simp, ?_⟩⟩
        simpa [Zlib.stream] using hz
      | some plain =>
        have hwrite := writeAny_logged (f := f)
          (g := { g with eof := g.eof || peer.orderly, broken := g.broken || !peer.orderly }) plain hf
        refine meets_bind.2 (hwrite.mono fun f' g₁ h₁ => (meets_pure _).2 ?_)
        obtain ⟨_, hwrites, hreceives, hreceived, heof, hbroken⟩ := h₁
        refine ⟨fun _ => ⟨hpeer, plain, by simpa [Zlib.stream] using hz, ?_⟩, fun h => by cases h⟩
        refine ⟨⟨hreceives.completed, hreceives.target, hreceives.prepared, hreceives.stuck⟩, ?_,
          heof, hbroken, ?_⟩
        · rw [hreceived, List.append_nil]
        · exact ⟨hwrites.ended, hwrites.whole, hwrites.cut⟩
  | cons chunk chunks ih =>
    intro hchunks made n f g hf
    have hchunk : chunk ≠ [] := hchunks chunk List.mem_cons_self
    refine meets_bind.2 ((meets_logged _).2 fun r _ => ?_)
    rw [next_recv g fd hchunk]
    refine meets_bind.2 (inflate_logged ?_)
    cases hz : zlib.inflated (made ++ [(chunk, false)]) with
    | none =>
      refine (meets_pure _).2 ⟨fun h => (by cases h), fun _ => ?_⟩
      refine ⟨⟨rfl, rfl, rfl, rfl⟩, .inr ⟨[chunk], rfl, ?_⟩⟩
      simp [Zlib.stream, hz]
    | some plain =>
      have hwrite := writeAny_logged (f := f) (g := { g with received := g.received ++ [chunk] }) plain hf
      refine meets_bind.2 (hwrite.mono fun f' g₁ h₁ => meets_bind.2 (applyThrottle_logged _ _ _ ?_))
      have hfirst : Receives g g₁ :=
        ⟨h₁.receives.completed, h₁.receives.target, h₁.receives.prepared, h₁.receives.stuck⟩
      have hrest (c : Str) (hc : c ∈ chunks) : c ≠ [] := hchunks c (List.mem_cons_of_mem _ hc)
      have hstream (cs : List Str) : Zlib.stream zlib.inflated made (chunk :: cs) =
          (Zlib.stream zlib.inflated (made ++ [(chunk, false)]) cs).map (plain ++ ·) := by
        simp [Zlib.stream, hz]
      refine (ih hrest _ _ f' g₁ h₁.good).mono fun ok g' h => ⟨fun hok => ?_, fun hok => ?_⟩
      · obtain ⟨hpeer, out, hout, hall⟩ := h.done hok
        exact ⟨hpeer, plain ++ out, by rw [hstream, hout, Option.map_some], h₁.receivesAll hall⟩
      · obtain ⟨hreceives', hbroken' | ⟨cs, hcs, hnone⟩⟩ := h.failed hok
        · exact ⟨hfirst.trans hreceives', .inl hbroken'⟩
        · refine ⟨hfirst.trans hreceives', .inr ⟨chunk :: cs, ?_, by rw [hstream, hnone, Option.map_none]⟩⟩
          rw [hcs, h₁.received, List.append_assoc]
          rfl

structure StoreRun (env : Service) (s : Session) (g : Ledger) (code : ℕ) (used : Bool) : Prop where
  completed : g.completed = false
  used : used = true ↔ g.target = true ∧ g.stuck = false
  done : code = 226 → (g.Stored env.zlib s.transferModeZ ↔ g.WritesThrough env.zlib s.transferModeZ)
  failed : code ≠ 226 → g.WritesThrough env.zlib s.transferModeZ

lemma stored_iff {peer : Peer} {g g' : Ledger} {chunks : List Str}
    (h : ReceivesAll peer g g' chunks chunks.flatten)
    (hlost : g.lost = false) (hwritten : g.written = []) (hreceived : g.received = []) (heof : g.eof = false)
    (hbroken : g.broken = false) (zlib : Zlib) : g'.Stored zlib false ↔ g'.WritesThrough zlib false := by
  have hall : g'.received = chunks := by rw [h.received, hreceived, List.nil_append]
  simp only [Stored, WritesThrough, Bool.false_eq_true, if_false, hall, h.writes.whole_iff hlost hwritten, h.eof,
    h.broken, heof, hbroken, Bool.false_or, Bool.not_eq_false']

lemma receiveTo_logged (data_fd : Fd) (peer : Peer) {f : OutFile} (hf : f.good = true) :
    Meets transfers (s.receiveTo env data_fd peer f) (fun r g => s.StoreRun env g r.1 r.2.2)
      { target := true } := by
  have hclose {r : ℕ × Str × Bool} {g : Ledger} (h : s.StoreRun env g r.1 r.2.2) :
      Meets transfers (do perform (.close f.fd); perform (.close data_fd); return r : Io _)
        (fun r g => s.StoreRun env g r.1 r.2.2) g :=
    meets_bind.2 ((meets_logged _).2 fun _ _ => meets_bind.2 ((meets_logged _).2 fun _ _ => (meets_pure _).2 h))
  refine meets_bind.2 ((meets_logged _).2 fun start_time _ => ?_)
  refine meets_ite.2 ⟨fun hz => ?_, fun hz => ?_⟩
  · refine meets_bind.2 ((meets_logged _).2 fun valid _ => ?_)
    cases valid with
    | false =>
      refine hclose ⟨rfl, by simp [next], fun h => absurd h (by decide), fun _ => ?_⟩
      simp [WritesThrough, hz, next]
    | true =>
      refine meets_bind.2 ((inflateLoop_logged env.zlib _ start_time data_fd peer peer.chunks peer.nonempty [] 0 f
        _ ?_).mono fun ok g h => ?_)
      · exact hf
      have hclosed : Meets transfers (do
            perform (.close f.fd)
            perform (.close data_fd)
            return if ok then (226, "Transfer complete", true) else (426, "Transfer aborted", true) :
              Io (ℕ × Str × Bool))
          (fun r g => s.StoreRun env g r.1 r.2.2) g := by
        refine hclose ?_
        cases ok with
        | true =>
          obtain ⟨hpeer, out, hout, hall⟩ := h.done rfl
          refine ⟨hall.receives.completed, ?_, fun _ => ?_, fun h => absurd rfl h⟩
          · exact iff_of_true rfl ⟨hall.receives.target, hall.receives.stuck⟩
          · have hreceived : g.received = peer.chunks := hall.received
            have heof : g.eof = true := hall.eof.trans hpeer
            have hbroken : g.broken = false := hall.broken.trans (by simp [hpeer, next])
            have hwhole := hall.writes.whole_iff rfl rfl
            simp only [Stored, WritesThrough, hz, if_true, hreceived, hout, heof, hbroken, true_and,
              Option.some.injEq, Bool.false_eq_true, reduceCtorEq, false_or]
            rw [eq_comm, hwhole]
        | false =>
          obtain ⟨hreceives, hstopped⟩ := h.failed rfl
          refine ⟨hreceives.completed, iff_of_true rfl ⟨hreceives.target, hreceives.stuck⟩,
            fun h => absurd h (by decide), fun _ => ?_⟩
          simp only [WritesThrough, hz, if_true]
          rcases hstopped with hbroken | ⟨cs, hcs, hnone⟩
          · exact .inl hbroken
          · have hreceived : g.received = cs := hcs
            rw [hreceived]
            exact .inr (.inl hnone)
      exact hclosed
  · have hplain : s.transferModeZ = false := by simpa using hz
    have hloop := receiveLoop_logged env.config_.rate_limit.max_transfer_rate start_time data_fd peer peer.chunks
      peer.nonempty 0 f { target := true } hf
    refine meets_bind.2 (hloop.mono fun f' g h => ?_)
    refine hclose ⟨h.receives.completed, ?_, fun _ => ?_, fun h => absurd rfl h⟩
    · exact iff_of_true rfl ⟨h.receives.target, h.receives.stuck⟩
    · rw [hplain]
      exact stored_iff h rfl rfl rfl rfl rfl env.zlib

lemma openTarget_logged (filepath : Str) : Meets transfers (s.openTarget filepath) (fun r g =>
    (r = none → g = {}) ∧ ∀ f, r = some f → f.good = true ∧ g = { target := true }) {} := by
  have hresumed : Meets transfers (if 0 < s.resume_position_ then do
        let found ← orThrow (← perform (.status filepath))
        if found ≠ .notFound then perform (.openWrite filepath .update) else return none
      else return none : Io (Option Fd)) (fun r g => g = { target := r.isSome }) {} := by
    refine meets_ite.2 ⟨fun _ => ?_, fun _ => (meets_pure _).2 rfl⟩
    refine meets_bind.2 ((meets_logged _).2 fun r _ => ?_)
    refine meets_bind.2 ((Ledger.meets_orThrow _).2 fun found _ => ?_)
    refine meets_ite.2 ⟨fun _ => (meets_logged _).2 fun r _ => ?_, fun _ => (meets_pure _).2 rfl⟩
    cases r <;> rfl
  refine meets_bind.2 (hresumed.mono fun r g hg => ?_)
  subst hg
  cases r with
  | some fd =>
    refine (meets_pure _).2 ⟨fun h => (by cases h), fun f hf => ?_⟩
    cases hf
    exact ⟨rfl, rfl⟩
  | none =>
    refine meets_bind.2 ((meets_logged _).2 fun opened _ => (meets_pure _).2 ?_)
    cases opened with
    | none => exact ⟨fun _ => rfl, fun f h => (by cases h)⟩
    | some fd =>
      refine ⟨fun h => (by cases h), fun f hf => ?_⟩
      cases hf
      exact ⟨rfl, rfl⟩

lemma writesThrough_of_idle {g : Ledger} {zlib : Zlib} {z : Bool} (hb : g.broken = false) (hl : g.lost = false) :
    g.WritesThrough zlib z := by
  unfold WritesThrough
  split
  · exact .inr (.inr hl)
  · exact ⟨hb, hl⟩

lemma storeFrom_logged (data_fd : Fd) (peer : Peer) (filepath : Str) :
    Meets transfers (s.storeFrom env data_fd peer filepath) (fun r g => s.StoreRun env g r.1 r.2.2) {} := by
  have hparents : Meets transfers (if Path.hasParentPath filepath then do
        let _ ← orThrow (← perform (.createDirectories (Path.parentPath filepath)))
        return ()
      else return () : Io Unit) (fun _ g => g = {}) {} := by
    refine meets_ite.2 ⟨fun _ => ?_, fun _ => (meets_pure _).2 rfl⟩
    refine meets_bind.2 ((meets_logged _).2 fun r _ => ?_)
    refine meets_bind.2 ((Ledger.meets_orThrow _).2 fun _ _ => ?_)
    exact (meets_pure _).2 rfl
  refine meets_bind.2 (hparents.mono fun _ g hg => ?_)
  subst hg
  refine meets_bind.2 ((openTarget_logged filepath).mono fun r g h => ?_)
  cases r with
  | none =>
    rw [h.1 rfl]
    refine meets_bind.2 ((meets_logged _).2 fun _ _ => ?_)
    refine (meets_pure _).2 ⟨rfl, by simp [next], ?_, fun _ => ?_⟩
    · exact fun h => absurd h (by decide)
    · exact writesThrough_of_idle rfl rfl
  | some f =>
    obtain ⟨hgood, rfl⟩ := h.2 f rfl
    exact receiveTo_logged data_fd peer hgood

def FindsRoom (s : Session) (fs : FileSystem) (name : Str) : Prop :=
  s.hasPermission fs "write" name = true ∧ s.validatePath fs (s.resolvePath fs name) = true ∧
    ∀ u, s.current_user_ = some u → 0 < s.storageQuota →
      directorySize (fs.regularFilesBelow u.home_directory_) < s.storageQuota

lemma quotaExceeded_logged : Leads transfers (World.machine me) s.quotaExceeded (fun exceeded g => g = {} ∧
    (exceeded = false ↔ ∀ u, s.current_user_ = some u → 0 < s.storageQuota →
      directorySize (w.fs.regularFilesBelow u.home_directory_) < s.storageQuota)) {} w := by
  unfold quotaExceeded
  split
  · rename_i u hu
    refine leads_ite (fun hquota => leads_call (leads_pure ⟨rfl, ?_⟩)) fun hnone => leads_pure ⟨rfl, ?_⟩
    · simp only [hu, Option.some.injEq, decide_eq_false_iff_not, not_le]
      exact ⟨fun h u' hu' _ => hu' ▸ h, fun h => h u rfl hquota⟩
    · exact iff_of_true rfl fun _ _ hquota => absurd hquota hnone
  · rename_i hu
    refine leads_pure ⟨rfl, iff_of_true rfl fun u h => ?_⟩
    exact absurd (hu.symm.trans h) (Option.some_ne_none u).symm

lemma handleSTOR_logged (hs : s.socket_ ≠ none) (name : Str) :
    Leads transfers (World.machine me) (s.handleSTOR env name) (fun s' g =>
      TransferRun s s' g (s.RefusesRestart ∧ s.FindsRoom w.fs name) (g.target = true ∧ g.stuck = false)
        (g.Stored env.zlib s.transferModeZ) (g.WritesThrough env.zlib s.transferModeZ)) {} w := by
  have hidle (d : DataConnection) (h : ¬(s.RefusesRestart ∧ s.FindsRoom w.fs name)) :
      TransferRun s { s with data := d } {} (s.RefusesRestart ∧ s.FindsRoom w.fs name)
        (({} : Ledger).target = true ∧ ({} : Ledger).stuck = false) (({} : Ledger).Stored env.zlib s.transferModeZ)
        (({} : Ledger).WritesThrough env.zlib s.transferModeZ) :=
    .idle rfl rfl (writesThrough_of_idle rfl rfl) h fun h => absurd h.1 Bool.false_ne_true
  refine leads_call (leads_ite (fun hno => ?_) fun hperm => ?_)
  · refine leads_meets (meets_answer_return hs _ _ (hidle s.data fun h => ?_)) _
    simp [h.2.1] at hno
  refine leads_ite (fun hno => ?_) fun hvalid => ?_
  · refine leads_meets (meets_answer_return hs _ _ (hidle s.data fun h => ?_)) _
    simp [h.2.2.1] at hno
  refine leads_bind (quotaExceeded_logged.mono fun exceeded g hroom v => ?_)
  obtain ⟨rfl, hroom⟩ := hroom
  refine leads_ite (fun hfull => ?_) fun hfree => ?_
  · refine leads_meets (meets_answer_return hs _ _ (hidle s.data fun h => ?_)) _
    exact absurd (hfull.symm.trans (hroom.2 h.2.2.2)) (by decide)
  have hfinds : s.FindsRoom w.fs name :=
    ⟨by simpa using hperm, by simpa using hvalid, hroom.1 (by simpa using hfree)⟩
  refine leads_meets (meets_bind.2 (modeZRefusal_logged hs (fun hrestart => ?_) (fun _ hno => ?_) fun hgo => ?_)) _
  · refine (meets_pure _).2 ⟨fun _ => rfl, fun h => absurd (.inl ⟨hrestart, hfinds⟩) h,
      iff_of_true (fun h => by cases h) ?_⟩
    exact writesThrough_of_idle rfl rfl
  · exact (meets_pure _).2 (hidle s.data fun h => hno h.1)
  have hnot : ¬(s.RefusesRestart ∧ s.FindsRoom w.fs name) := fun h => hgo h.1
  refine meets_bind.2 (meets_answer hs _ _ (meets_bind.2 ?_))
  refine meets_unlogged s.data.acceptDataConnection_unlogged fun r _ => ?_
  obtain ⟨_ | ⟨data_fd, peer⟩, d⟩ := r
  · exact meets_answer_return hs _ _ (hidle d hnot)
  · refine meets_bind.2 ((storeFrom_logged (s := { s with data := d }) data_fd peer _).mono fun r g h => ?_)
    refine meets_answer_return hs _ _ ?_
    have hsame : (g.replied r.1).completed = decide (r.1 = 226) := by simp [replied, h.completed]
    have hcomplete : ((g.replied r.1).completed = true → g.Stored env.zlib s.transferModeZ) ↔
        g.WritesThrough env.zlib s.transferModeZ := by
      rw [hsame, decide_eq_true_eq]
      by_cases hcode : r.1 = 226
      · exact (forall_prop_of_true hcode).trans (h.done hcode)
      · exact iff_of_true (fun h => absurd h hcode) (h.failed hcode)
    cases hused : r.2.2 with
    | true => exact ⟨fun _ => rfl, fun hno => absurd (.inr (h.used.1 hused)) hno, hcomplete⟩
    | false =>
      refine ⟨fun hready => ?_, fun _ => rfl, hcomplete⟩
      have hno := mt h.used.2 (by simp [hused])
      exact (hready.elim hnot hno).elim

lemma uniqueName_logged (dir base : Str) (n : ℕ) : ∀ attempt, Leads transfers (World.machine me)
    (uniqueName dir base attempt n) (fun r g => g = {} ∧ (r.isSome = true ↔ ∃ m, attempt ≤ m ∧ m < attempt + n ∧
      isThere (w.fs.status (dir ++ "/" ++ (base ++ "." ++ decimal m))) = false)) {} w := by
  induction n with
  | zero => exact fun attempt => leads_pure ⟨rfl, iff_of_false Bool.false_ne_true fun ⟨m, h, h', _⟩ => by omega⟩
  | succ n ih =>
    intro attempt
    refine leads_call (leads_ite (fun hfree => leads_pure ⟨rfl, iff_of_true rfl ?_⟩) fun htaken => ?_)
    · exact ⟨attempt, le_rfl, by omega, by simpa using hfree⟩
    · refine (ih (attempt + 1)).mono fun r g h => ⟨h.1, h.2.trans ⟨?_, ?_⟩⟩
      · rintro ⟨m, hlow, hhigh, hfree⟩
        exact ⟨m, by omega, by omega, hfree⟩
      · rintro ⟨m, hlow, hhigh, hfree⟩
        refine ⟨m, ?_, by omega, hfree⟩
        rcases hlow.eq_or_lt with rfl | hlt
        · exact absurd hfree (by simpa using htaken)
        · exact hlt

def FindsName (s : Session) (fs : FileSystem) (argument : Str) : Prop :=
  ∃ m < 10000, isThere (fs.status (s.current_directory_ ++ "/" ++
    ((if argument = [] then ("ftpd" : Str) else Path.filename argument) ++ "." ++ decimal m))) = false

lemma handleSTOU_logged (hs : s.socket_ ≠ none) (argument : Str) :
    Leads transfers (World.machine me) (s.handleSTOU env argument) (fun s' g =>
      TransferRun s s' g False (s.FindsName w.fs argument)
        (g.Stored env.zlib s.transferModeZ) (g.WritesThrough env.zlib s.transferModeZ)) {} w := by
  refine leads_bind ((uniqueName_logged _ _ _ _).mono fun r g h v => ?_)
  obtain ⟨rfl, hfree⟩ := h
  simp only [Nat.zero_le, true_and, Nat.zero_add] at hfree
  cases r with
  | none =>
    have hnone : ¬s.FindsName w.fs argument := fun h => absurd (hfree.2 h) Bool.false_ne_true
    refine leads_meets (meets_answer_return hs _ _ ?_) _
    exact .idle rfl rfl (writesThrough_of_idle rfl rfl) id hnone
  | some unique =>
    refine leads_bind ((handleSTOR_logged (s := { s with store_unique_name_ := unique, resume_position_ := 0 })
      hs unique).mono fun s' g h v' => leads_pure ?_)
    have hzero : s'.resume_position_ = 0 := (Classical.em _).elim h.used h.kept
    exact ⟨fun _ => hzero, fun hno => absurd (.inr (hfree.1 rfl)) hno, h.complete⟩

lemma appendLoop_logged (data_fd fd : Fd) (peer : Peer) (chunks : List Str) :
    (∀ chunk ∈ chunks, chunk ≠ []) → ∀ (good : Bool) (g : Ledger), good = (!g.lost) →
      Meets transfers (appendLoop data_fd fd peer chunks good)
        (fun _ g' => ReceivesAll peer g g' chunks chunks.flatten) g := by
  induction chunks with
  | nil =>
    intro _ good g _
    refine (meets_logged _).2 fun r _ => ?_
    rw [next_recv_end]
    exact ⟨⟨rfl, rfl, rfl, rfl⟩, by simp, rfl, rfl, .same rfl rfl⟩
  | cons chunk chunks ih =>
    intro hchunks good g hgood
    have hchunk : chunk ≠ [] := hchunks chunk List.mem_cons_self
    refine meets_bind.2 ((meets_logged _).2 fun r _ => ?_)
    rw [next_recv g data_fd hchunk]
    have hwrite : Meets transfers (if good then perform (.appendTo fd chunk) else return false : Io Bool)
        (fun good' g' => WriteRun { g with received := g.received ++ [chunk] } g' chunk good')
        { g with received := g.received ++ [chunk] } := by
      refine meets_ite.2 ⟨fun hyes => (meets_logged _).2 fun ok _ => ?_, fun hno => ?_⟩
      · exact WriteRun.step (g := { g with received := g.received ++ [chunk] }) hgood hyes hchunk ok
      · have hbad : good = false := by simpa using hno
        exact (meets_pure _).2 (hbad ▸ .idle hgood hbad)
    refine meets_bind.2 (hwrite.mono fun good' g₁ h₁ => ?_)
    have hrest (c : Str) (hc : c ∈ chunks) : c ≠ [] := hchunks c (List.mem_cons_of_mem _ hc)
    exact (ih hrest good' g₁ h₁.good).mono fun _ g' h => h₁.receivesAll h

lemma handleAPPE_logged (env : Service) (hs : s.socket_ ≠ none) (name : Str) :
    Leads transfers (World.machine me) (s.handleAPPE name) (fun s' g =>
      TransferRun s s' g False (g.target = true) (g.Stored env.zlib s.transferModeZ)
        (g.WritesThrough env.zlib s.transferModeZ)) {} w := by
  have hidle (d : DataConnection) : TransferRun s { s with data := d } {} False (({} : Ledger).target = true)
      (({} : Ledger).Stored env.zlib s.transferModeZ) (({} : Ledger).WritesThrough env.zlib s.transferModeZ) :=
    .idle rfl rfl (writesThrough_of_idle rfl rfl) id Bool.false_ne_true
  refine leads_call (leads_ite (fun _ => leads_meets (meets_answer_return hs _ _ (hidle s.data)) _) fun _ => ?_)
  refine leads_ite (fun _ => leads_meets (meets_answer_return hs _ _ (hidle s.data)) _) fun _ => ?_
  refine leads_ite (fun _ => leads_meets (meets_answer_return hs _ _ (hidle s.data)) _) fun hz => ?_
  have hplain : s.transferModeZ = false := by simpa using hz
  refine leads_meets (meets_bind.2 (meets_answer hs _ _ (meets_bind.2 ?_))) _
  refine meets_unlogged s.data.acceptDataConnection_unlogged fun r _ => ?_
  obtain ⟨_ | ⟨data_fd, peer⟩, d⟩ := r
  · exact meets_answer_return hs _ _ (hidle d)
  refine meets_bind.2 ((meets_logged _).2 fun r _ => ?_)
  refine meets_bind.2 ((Ledger.meets_orThrow _).2 fun found _ => ?_)
  refine meets_bind.2 ((meets_logged _).2 fun opened _ => ?_)
  cases opened with
  | none => exact meets_bind.2 ((meets_logged _).2 fun _ _ => meets_answer_return hs _ _ (hidle d))
  | some fd =>
    have hloop := appendLoop_logged data_fd fd peer peer.chunks peer.nonempty true { target := true } rfl
    refine meets_bind.2 (hloop.mono fun _ g h => ?_)
    refine meets_bind.2 ((meets_logged _).2 fun _ _ => ?_)
    refine meets_bind.2 ((meets_logged _).2 fun _ _ => ?_)
    refine meets_answer_return hs _ _ ⟨fun _ => rfl, fun hno => absurd (.inr h.receives.target) hno, ?_⟩
    rw [hplain]
    have hall := stored_iff h rfl rfl rfl rfl rfl env.zlib
    exact (forall_prop_of_true (by simp [replied])).trans hall

end Session

end SimpleSftpd
