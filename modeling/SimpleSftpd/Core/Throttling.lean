import SimpleSftpd.Core.Run

/-! How fast a transfer goes: the bytes moved since its start, and those let past while the clock had not
moved on. -/

namespace SimpleSftpd

open Cxx Interaction Prog

/-- `clock` is a time the run has reached, `skipping` says whether the last reading was the time of the start,
and `early` counts the bytes moved after such readings. -/
structure Meter where
  start : Option ℕ := none
  clock : ℕ := 0
  skipping : Bool := true
  received : ℕ := 0
  moved : ℕ := 0
  early : ℕ := 0

namespace Meter

def elapsed (g : Meter) (now : ℕ) : ℕ := match g.start with
  | none => 0
  | some start => now - start

def took (g : Meter) (n : ℕ) : Meter :=
  { g with moved := g.moved + n, early := if g.skipping then g.early + n else g.early }

def next (g : Meter) {β : Type} (o : Call β) : β → Meter := match o with
  | .steadyNow => fun now =>
    { g with start := some (g.start.getD now), clock := now, skipping := g.elapsed now = 0 }
  | .sleepFor ms => fun _ => { g with clock := g.clock + ms }
  | .recv _ (some chunk) => fun _ => { g with received := g.received + chunk.length }
  | .send _ _ | .sendfile _ _ _ _ | .sendMapped _ _ _ _ => fun n => g.took n.toNat
  | .write _ _ data => fun _ => g.took data.length
  | _ => fun _ => g

def Allowed (g : Meter) (r B now n : ℕ) : Prop := 1000 * n ≤ r * (g.elapsed now + 1) + 1000 * B

def Fits (g : Meter) (r now : ℕ) : Prop :=
  r * g.elapsed now < 2 ^ 63 ∧ 1000 * g.moved < 2 ^ 63 ∧ 1000 * g.received < 2 ^ 63

def Paced (g : Meter) (r B : ℕ) : Prop := g.early ≤ g.moved ∧
  (g.moved = g.early ∨ ¬g.Fits r g.clock ∨ 0 < g.elapsed g.clock ∧ g.Allowed r B g.clock g.moved)

def Ready (g : Meter) (r bytes : ℕ) : Prop :=
  (g.moved = g.early ∧ g.skipping = true) ∨ ¬g.Fits r g.clock ∨
    g.skipping = false ∧ 0 < g.elapsed g.clock ∧ g.Allowed r 0 g.clock bytes

variable {g g' : Meter} {r B n bytes now : ℕ}

lemma elapsed_mono {now' : ℕ} (h : now ≤ now') : g.elapsed now ≤ g.elapsed now' := by
  rw [elapsed, elapsed]
  cases g.start with
  | none => exact le_rfl
  | some start => exact Nat.sub_le_sub_right h start

lemma Allowed.mono {m now' : ℕ} (h : g.Allowed r B now n) (hm : m ≤ n) (hnow : now ≤ now') :
    g.Allowed r B now' m := by
  have hlater : r * (g.elapsed now + 1) ≤ r * (g.elapsed now' + 1) :=
    Nat.mul_le_mul_left r (Nat.succ_le_succ (elapsed_mono hnow))
  rw [Allowed] at h ⊢
  omega

lemma Fits.mono {now' : ℕ} (h : g.Fits r now') (hnow : now ≤ now') : g.Fits r now :=
  ⟨(Nat.mul_le_mul_left r (elapsed_mono hnow)).trans_lt h.1, h.2⟩

structure Waits (g g' : Meter) : Prop where
  start : g'.start = g.start
  clock : g.clock ≤ g'.clock
  received : g.received ≤ g'.received
  moved : g'.moved = g.moved
  early : g'.early = g.early

lemma Waits.elapsed (h : Waits g g') (now : ℕ) : g'.elapsed now = g.elapsed now := by
  rw [Meter.elapsed, Meter.elapsed, h.start]

lemma Waits.fits (h : Waits g g') (hfits : g'.Fits r g'.clock) : g.Fits r g.clock := by
  obtain ⟨hrate, hmoved, hreceived⟩ := hfits.mono h.clock
  rw [h.elapsed] at hrate
  rw [h.moved] at hmoved
  exact ⟨hrate, hmoved, (Nat.mul_le_mul_left 1000 h.received).trans_lt hreceived⟩

lemma Waits.trans {g'' : Meter} (h : Waits g g') (h' : Waits g' g'') : Waits g g'' :=
  ⟨h'.start.trans h.start, h.clock.trans h'.clock, h.received.trans h'.received, h'.moved.trans h.moved,
    h'.early.trans h.early⟩

lemma Paced.waits (hg : g.Paced r B) (h : Waits g g') : g'.Paced r B := by
  obtain ⟨hearly, hpaced⟩ := hg
  refine ⟨by rwa [h.early, h.moved], ?_⟩
  rcases hpaced with hsame | hspent | ⟨hpast, hallowed⟩
  · exact .inl (by rw [h.moved, h.early, hsame])
  · exact .inr (.inl fun hfits => hspent (h.fits hfits))
  · refine .inr (.inr ⟨?_, ?_⟩)
    · rw [h.elapsed]
      exact hpast.trans_le (elapsed_mono h.clock)
    · have hlater := hallowed.mono le_rfl h.clock
      rwa [Allowed, h.elapsed, h.moved]

lemma Ready.took (h : g.Ready r bytes) (hearly : g.early ≤ g.moved) (hn : g.moved + n ≤ bytes + B) :
    (g.took n).Paced r B := by
  have hle : (g.took n).early ≤ (g.took n).moved := by
    simp only [Meter.took]
    split <;> omega
  refine ⟨hle, ?_⟩
  rcases h with ⟨hsame, hskip⟩ | hspent | ⟨_, hpast, hallowed⟩
  · refine .inl ?_
    simp only [Meter.took, hskip, if_true, hsame]
  · refine .inr (.inl fun hfits => hspent ⟨hfits.1, ?_, hfits.2.2⟩)
    exact (Nat.mul_le_mul_left 1000 (Nat.le_add_right _ n)).trans_lt hfits.2.1
  · refine .inr (.inr ⟨hpast, ?_⟩)
    have hmore : 1000 * (g.moved + n) ≤ r * (g.elapsed g.clock + 1) + 1000 * B := by
      rw [Allowed] at hallowed
      omega
    exact hmore

lemma took_zero (g : Meter) : g.took 0 = g := by
  simp only [took, Nat.add_zero, ite_self]

def metered (r B : ℕ) : Contract Call Meter where
  pre g _ := g.Paced r B
  post g o := match o with
    | .steadyNow => fun now => g.clock ≤ now
    | .send _ data => fun n => n ≤ data.length
    | .sendfile _ _ _ count => fun n => n ≤ count
    | .sendMapped _ _ _ count => fun n => n ≤ count
    | .read _ n => fun r => ∀ data, r = some data → data.length ≤ n
    | _ => fun _ => True
  next g o r := g.next o r

def Unmetered (o : Σ β, Call β) : Prop := ∀ (g : Meter) (r : o.1), g.next o.2 r = g

section

variable {α β : Type} {P : α → Meter → Prop} {E : Meter → Prop} {start : ℕ} {rate : Int}

lemma ends_call {o : Call β} {f : β → Io α} (hg : g.Paced r B)
    (h : ∀ x, (metered r B).post g o x → Ends (metered r B) (f x) P E (g.next o x)) :
    Ends (metered r B) (perform o >>= f) P E g := ⟨hg, h⟩

lemma ends_unmetered {p : Io β} {f : β → Io α} {P' : β → Prop} (hp : p.Within Unmetered P') (hg : g.Paced r B)
    (h : ∀ b, P' b → Ends (metered r B) (f b) P E g) (hE : E g) : Ends (metered r B) (p >>= f) P E g := by
  have hkept {γ : Type} (o : Call γ) (g' : Meter) (ho : Unmetered ⟨γ, o⟩) (hsame : g' = g) :
      (metered r B).pre g' o ∧ ∀ x, (metered r B).post g' o x → (metered r B).next g' o x = g :=
    ⟨hsame ▸ hg, fun x _ => (ho g' x).trans hsame⟩
  apply ends_bind
  apply (Within.ends hp (J := fun g' => g' = g) hkept rfl).mono
  · rintro b _ ⟨hb, rfl⟩
    exact h b hb
  · rintro _ rfl
    exact hE

lemma delay_allows (hr : 0 < r) (bytes e : ℕ) :
    1000 * bytes ≤ r * (e + (bytes - r * e / 1000) * 1000 / r + 1) := by
  have hallowed : r * e / 1000 * 1000 ≤ r * e := Nat.div_mul_le_self _ _
  have hdelay : (bytes - r * e / 1000) * 1000 < r * ((bytes - r * e / 1000) * 1000 / r + 1) :=
    Nat.lt_mul_div_succ _ hr
  have hsum : r * (e + (bytes - r * e / 1000) * 1000 / r + 1) = r * e + r *
      ((bytes - r * e / 1000) * 1000 / r + 1) := by
    rw [Nat.add_assoc, Nat.mul_add]
  omega

lemma waits_reading (hstart : g.start = some start) (hnow : g.clock ≤ now) : Waits g (g.next .steadyNow now) := by
  refine ⟨?_, hnow, le_rfl, rfl, rfl⟩
  simp only [next, hstart, Option.getD_some]

lemma ready_of_paced (hg : g.Paced r B) (hskip : g.skipping = decide (g.elapsed g.clock = 0))
    (hgo : g.Fits r g.clock → 0 < g.elapsed g.clock → g.Allowed r 0 g.clock bytes) : g.Ready r bytes := by
  by_cases hfits : g.Fits r g.clock
  · by_cases hpast : 0 < g.elapsed g.clock
    · exact .inr (.inr ⟨by simpa [hskip] using hpast.ne', hpast, hgo hfits hpast⟩)
    · rcases hg.2 with hsame | hspent | ⟨hmoved, _⟩
      · exact .inl ⟨hsame, by simpa [hskip] using hpast⟩
      · exact absurd hfits hspent
      · exact absurd hmoved hpast
  · exact .inr (.inl hfits)

lemma applyThrottle_ready (hr : 0 < r) (hrate : rate = r) (hstart : g.start = some start) (hg : g.Paced r B)
    (hbytes : bytes ≤ max g.moved g.received) : Ends (metered r B) (applyThrottle rate start bytes)
      (fun _ g' => Waits g g' ∧ g'.received = g.received ∧ g'.Ready r bytes) E g := by
  subst hrate
  rw [applyThrottle, if_neg (by omega)]
  apply ends_call hg
  intro now hnow
  rw [Int.toNat_natCast]
  generalize hg₁ : g.next .steadyNow now = g₁
  have hwaits : Waits g g₁ := hg₁ ▸ waits_reading hstart hnow
  have hreceived : g₁.received = g.received := by rw [← hg₁]; rfl
  have hclock : g₁.clock = now := by rw [← hg₁]; rfl
  have helapsed (later : ℕ) : g₁.elapsed later = later - start := by rw [hwaits.elapsed, elapsed, hstart]
  have hskip : g₁.skipping = decide (now - start = 0) := by
    rw [← hg₁]
    change decide (g.elapsed now = 0) = _
    rw [elapsed, hstart]
  -- as long as the products fit, they do not wrap
  have hwrap (hfits : g₁.Fits r g₁.clock) : r * (now - start) % 2 ^ 64 = r * (now - start) ∧
      ∀ left ≤ bytes, left * 1000 % 2 ^ 64 = left * 1000 := by
    obtain ⟨hproduct, hmoved, hreceiving⟩ := hfits
    rw [hclock, helapsed] at hproduct
    rw [hwaits.moved] at hmoved
    rw [hreceived] at hreceiving
    refine ⟨Nat.mod_eq_of_lt (by omega), fun left hleft => Nat.mod_eq_of_lt (by omega)⟩
  dsimp only
  apply ends_ite
  · rintro ⟨hpast, hover⟩
    apply ends_perform (hg.waits hwaits)
    intro _ _
    generalize hms : (bytes - r * (now - start) % 2 ^ 64 / 1000) * 1000 % 2 ^ 64 / r = ms
    generalize hg₂ : (metered r B).next g₁ (.sleepFor ms) _ = g₂
    have hslept : Waits g₁ g₂ := hg₂ ▸ ⟨rfl, Nat.le_add_right _ _, le_rfl, rfl, rfl⟩
    have hlater : g₂.elapsed g₂.clock = now - start + ms := by
      rw [hslept.elapsed, helapsed, ← hg₂]
      change g₁.clock + ms - start = _
      omega
    refine ⟨hwaits.trans hslept, by rw [← hg₂]; exact hreceived, ?_⟩
    apply ready_of_paced (hg.waits (hwaits.trans hslept))
    · rw [hlater, ← hg₂]
      change g₁.skipping = _
      rw [hskip, decide_eq_decide]
      omega
    · intro hfits _
      obtain ⟨hproduct, hdelay⟩ := hwrap (hslept.fits hfits)
      rw [hproduct, hdelay _ (Nat.sub_le _ _)] at hms
      rw [Allowed, hlater, ← hms]
      exact delay_allows hr bytes (now - start)
  · intro hno
    apply ends_pure
    refine ⟨hwaits, hreceived, ?_⟩
    apply ready_of_paced (hg.waits hwaits)
    · rw [hskip, hclock, helapsed]
    · intro hfits hpast
      rw [hclock, helapsed] at hpast
      have hallowed : bytes ≤ r * (now - start) / 1000 := by
        rw [(hwrap hfits).1] at hno
        exact not_lt.1 fun hover => hno ⟨hpast, hover⟩
      have hbound : r * (now - start) / 1000 * 1000 ≤ r * (now - start) := Nat.div_mul_le_self _ _
      rw [Allowed, hclock, helapsed, Nat.mul_add]
      omega

end

end Meter

open Meter

namespace Retrieval

variable {t : Retrieval} {r total : ℕ} {g : Meter} {α : Type} {P : α → Meter → Prop} {E : Meter → Prop}

structure Sending (t : Retrieval) (r total : ℕ) (g : Meter) : Prop where
  start : g.start = some t.start_time
  moved : g.moved = total
  paced : g.Paced r t.buf_size

lemma ends_throttle (hr : 0 < r) (hrate : t.max_rate = r) (h : t.Sending r total g) {f : Unit → Io α}
    (hf : ∀ g', t.Sending r total g' → g'.Ready r total → Ends (metered r t.buf_size) (f ()) P E g') :
    Ends (metered r t.buf_size) (t.throttle total >>= f) P E g := by
  apply ends_bind
  have hbytes : total ≤ max g.moved g.received := h.moved ▸ le_max_left _ _
  apply (applyThrottle_ready hr hrate h.start h.paced hbytes).mono _ fun _ => id
  rintro _ g' ⟨hwaits, -, hready⟩
  exact hf g' ⟨hwaits.start.trans h.start, hwaits.moved.trans h.moved, h.paced.waits hwaits⟩ hready

lemma Sending.took {n : ℕ} (h : t.Sending r total g) (hready : g.Ready r total) (hn : n ≤ t.buf_size) :
    t.Sending r (total + n) (g.took n) := by
  refine ⟨h.start, ?_, ?_⟩
  · change g.moved + n = _
    rw [h.moved]
  · apply hready.took h.paced.1
    rw [h.moved]
    exact Nat.add_le_add_left hn _

lemma Sending.stop {n : Int} (h : t.Sending r total g) (hn : n ≤ 0) : t.Sending r total (g.took n.toNat) := by
  rw [Int.toNat_of_nonpos hn, took_zero]
  exact h

lemma sendfileLoop_paced (hr : 0 < r) (hrate : t.max_rate = r) (fuel : ℕ) :
    ∀ (offset : Int) (q : Progress) (g : Meter),
    t.Sending r q.total_bytes g →
    Ends (metered r t.buf_size) (t.sendfileLoop fuel offset q)
      (fun x g' => t.Sending r x.2.total_bytes g') E g := by
  induction fuel with
  | zero => exact fun offset q g h => ends_pure h
  | succ fuel ih =>
    intro offset q g h
    refine ends_ite (fun _ => ends_pure h) fun _ => ?_
    apply ends_throttle hr hrate h
    intro g' h' hready
    apply ends_call h'.paced
    intro n hn
    have hcount : n ≤ ((min t.buf_size q.remaining : ℕ) : Int) := hn
    refine ends_ite (fun hstop => ends_pure (h'.stop hstop)) fun _ => ?_
    have hsent : t.Sending r (q.total_bytes + n.toNat) (g'.took n.toNat) := h'.took hready (by omega)
    exact ends_ite (fun _ => ends_pure hsent) fun _ => ih _ _ _ hsent

lemma mmapLoop_paced (hr : 0 < r) (hrate : t.max_rate = r) (mapped : Str) (fuel : ℕ) :
    ∀ (index : Int) (q : Progress) (g : Meter),
    t.Sending r q.total_bytes g →
    Ends (metered r t.buf_size) (t.mmapLoop mapped fuel index q)
      (fun q' g' => t.Sending r q'.total_bytes g') E g := by
  induction fuel with
  | zero => exact fun index q g h => ends_pure h
  | succ fuel ih =>
    intro index q g h
    refine ends_ite (fun _ => ends_pure h) fun _ => ?_
    apply ends_throttle hr hrate h
    intro g' h' hready
    apply ends_call h'.paced
    intro n hn
    have hcount : n ≤ ((min t.buf_size q.remaining : ℕ) : Int) := hn
    refine ends_ite (fun hstop => ends_pure (h'.stop hstop)) fun _ => ?_
    exact ih _ _ _ (h'.took hready (by omega))

lemma readLoop_paced (hr : 0 < r) (hrate : t.max_rate = r) (fuel : ℕ) : ∀ (q : Progress) (g : Meter),
    t.Sending r q.total_bytes g → Ends (metered r t.buf_size) (t.readLoop fuel q)
      (fun q' g' => t.Sending r q'.total_bytes g') E g := by
  induction fuel with
  | zero => exact fun q g h => ends_pure h
  | succ fuel ih =>
    intro q g h
    refine ends_ite (fun _ => ends_pure h) fun _ => ?_
    apply ends_throttle hr hrate h
    intro g' h' hready
    apply ends_call h'.paced
    intro got hgot
    cases got with
    | none => exact ends_pure h'
    | some data =>
      have hread : data.length ≤ min t.buf_size q.remaining := hgot data rfl
      refine ends_ite (fun _ => ends_pure h') fun _ => ?_
      apply ends_call h'.paced
      intro n hn
      have hcount : n ≤ data.length := hn
      refine ends_ite (fun hstop => ends_pure (h'.stop hstop)) fun _ => ?_
      have hsent : t.Sending r (q.total_bytes + n.toNat) (g'.took n.toNat) := h'.took hready (by omega)
      exact ends_ite (fun _ => ends_pure hsent) fun _ => ih _ _ hsent

lemma mmapFile_paced (hr : 0 < r) (hrate : t.max_rate = r) (size : ℕ) (offset : Int) (h : t.Sending r total g) :
    Ends (metered r t.buf_size) (t.mmapFile size offset total)
      (fun mapped g' => t.Sending r (mapped.elim total Progress.total_bytes) g') E g := by
  apply ends_call h.paced
  intro mapped _
  cases mapped with
  | none => exact ends_pure h
  | some bytes =>
    apply ends_bind
    apply (mmapLoop_paced hr hrate bytes _ _ _ _ h).mono _ fun _ => id
    intro q g' h'
    apply ends_call h'.paced
    intro _ _
    exact ends_pure h'

lemma sendFile_paced (hr : 0 < r) (hrate : t.max_rate = r) (use_sendfile use_mmap : Bool) (size : ℕ)
    (offset : Int) (h : t.Sending r 0 g) :
    Ends (metered r t.buf_size) (t.sendFile use_sendfile use_mmap size offset) (fun _ g' => g'.Paced r t.buf_size)
      (fun g' => g'.Paced r t.buf_size) g := by
  rw [sendFile]
  apply ends_bind
  have hfirst : Ends (metered r t.buf_size) (if use_sendfile then t.sendfileLoop (size - offset).toNat offset
    ⟨0, (size - offset).toNat⟩
      else return (offset, ⟨0, (size - offset).toNat⟩) :
        Io (Int × Progress)) (fun x g' => t.Sending r x.2.total_bytes g')
      (fun g' => g'.Paced r t.buf_size) g :=
    ends_ite (fun _ => sendfileLoop_paced hr hrate _ _ _ _ h) fun _ => ends_pure h
  apply hfirst.mono _ fun _ => id
  rintro ⟨o, q⟩ g₁ h₁
  refine ends_ite (fun _ => ends_pure h₁.paced) fun _ => ?_
  apply ends_bind
  have hmapped : Ends (metered r t.buf_size) (if use_mmap ∧ 0 < size ∧ o < size then
    t.mmapFile size o q.total_bytes else return none : Io (Option Progress))
      (fun mapped g' => t.Sending r (mapped.elim q.total_bytes Progress.total_bytes) g')
      (fun g' => g'.Paced r t.buf_size) g₁ :=
    ends_ite (fun _ => mmapFile_paced hr hrate _ _ h₁) fun _ => ends_pure h₁
  apply hmapped.mono _ fun _ => id
  intro mapped g₂ h₂
  have hread {total left : ℕ} {g : Meter} (h : t.Sending r total g) : Ends (metered r t.buf_size) (do
      let sought : Bool ← perform (.lseek t.file_fd o)
      if !sought then return false
      else do
        t.makeBuffer
        let _ ← t.readLoop left ⟨total, left⟩
        return true) (fun _ g' => g'.Paced r t.buf_size) (fun g' => g'.Paced r t.buf_size) g := by
    apply ends_call h.paced
    intro sought _
    refine ends_ite (fun _ => ends_pure h.paced) fun _ => ?_
    refine ends_makeBuffer h.paced (fun _ => rfl) h.paced ?_
    apply ends_bind
    apply (readLoop_paced hr hrate _ _ _ h).mono _ fun _ => id
    exact fun q g' h' => ends_pure h'.paced
  cases mapped with
  | none => exact hread h₂
  | some m => exact ends_ite (fun _ => ends_pure h₂.paced) fun _ => hread h₂

end Retrieval

namespace Meter

variable {α β : Type} {r B : ℕ} {g : Meter} {P : α → Meter → Prop} {E : Meter → Prop} {s : Session}

def unmeteredKinds : List Kind := [.reply, .query, .change, .openRead, .close]

lemma unmetered_of_kind {o : Call β} (ho : o.kind ∈ unmeteredKinds) : Unmetered ⟨β, o⟩ := by
  intro g x
  cases o with
  | steadyNow | sleepFor | send | sendfile | sendMapped | recv | write => simp [Call.kind, unmeteredKinds] at ho
  | _ => rfl

lemma ends_aside {ks : List Kind} {p : Io β} {f : β → Io α} {P' : β → Prop} (hp : p.Within (Kinds ks) P')
    (hk : ks ⊆ unmeteredKinds)
    (hg : g.Paced r B) (h : ∀ b, P' b → Ends (metered r B) (f b) P E g) (hE : E g) :
    Ends (metered r B) (p >>= f) P E g :=
  ends_unmetered (hp.mono (fun _ ho => unmetered_of_kind (hk ho)) fun _ hb => hb) hg h hE

lemma ends_reply (hg : g.Paced r B) {code : ℕ} {text : Str} {f : Unit → Io α}
    (h : Ends (metered r B) (f ()) P E g) (hE : E g) :
    Ends (metered r B) (s.reply code text >>= f) P E g := by
  have hreply : (s.reply code text).Within (Kinds [.reply]) fun _ => True :=
    (Session.reply_within (List.mem_singleton_self _) _ _).2 trivial
  exact ends_aside hreply (by decide) hg (fun _ _ => h) hE

lemma acceptDataConnection_unmetered (d : DataConnection) :
    d.acceptDataConnection.Within Unmetered fun _ => True := by
  have hask {β γ : Type} {o : Call β} {f : β → Io γ} (ho : Unmetered ⟨β, o⟩) (hf : ∀ x,
    (f x).Within Unmetered fun _ => True) :
      (perform o >>= f).Within Unmetered fun _ => True := within_bind.2 ((within_perform o).2 ⟨ho, hf⟩)
  rw [DataConnection.acceptDataConnection, DataConnection.connectActiveDataSocket]
  refine within_ite.2 ⟨fun _ => within_ite.2 ⟨fun _ => (within_pure _).2 trivial, fun _ => ?_⟩, fun _ => ?_⟩
  · apply hask fun _ _ => rfl
    intro made
    cases made with
    | none => exact (within_pure _).2 trivial
    | some fd =>
      dsimp only
      cases inetPton d.active_mode_ip_ with
      | none => exact hask (fun _ _ => rfl) fun _ => (within_pure _).2 trivial
      | some _ =>
        apply hask fun _ _ => rfl
        intro peer
        cases peer with
        | none => exact hask (fun _ _ => rfl) fun _ => (within_pure _).2 trivial
        | some peer => exact (within_pure _).2 trivial
  · cases d.passive_listen_socket_ with
    | none => exact (within_pure _).2 trivial
    | some listener =>
      apply hask fun _ _ => rfl
      intro ready
      refine within_ite.2 ⟨fun _ => (within_pure _).2 trivial, fun _ => ?_⟩
      exact hask (fun _ _ => rfl) fun _ => (within_pure _).2 trivial

lemma paced_empty : Paced {} r B := ⟨le_rfl, .inl rfl⟩

end Meter

namespace Session

variable {α β : Type} {r B : ℕ} {g : Meter} {s : Session} {env : Service}

lemma sendOpened_paced (hr : 0 < r) (hrate : env.config_.rate_limit.max_transfer_rate = r)
    (hmode : s.transferModeZ = false)
    (data_fd file_fd : Fd) (start_time size : ℕ)
    (h : Retrieval.Sending ⟨data_fd, file_fd, env.bufferSize, r, start_time⟩ r 0 g) :
    Ends (metered r env.bufferSize) (s.sendOpened env data_fd file_fd start_time size)
      (fun _ g' => g'.Paced r env.bufferSize)
      (fun g' => g'.Paced r env.bufferSize) g := by
  rw [sendOpened, if_neg (by simp [hmode]), hrate]
  apply ends_bind
  apply (Retrieval.sendFile_paced hr rfl _ _ _ _ h).mono _ fun _ => id
  exact fun _ _ h' => ends_pure h'

lemma retrieveTo_paced (hr : 0 < r) (hrate : env.config_.rate_limit.max_transfer_rate = r)
    (hmode : s.transferModeZ = false)
    (data_fd : Fd) (path : Str) :
    Ends (metered r env.bufferSize) (s.retrieveTo env data_fd path) (fun _ g' => g'.Paced r env.bufferSize)
      (fun g' => g'.Paced r env.bufferSize) {} := by
  have hclose {γ : Type} {fd : Fd} {f : Unit → Io γ} {P : γ → Meter → Prop} {E : Meter → Prop} {g : Meter}
    (hg : g.Paced r env.bufferSize)
      (h : Ends (metered r env.bufferSize) (f ()) P E g) :
      Ends (metered r env.bufferSize) (perform (.close fd) >>= f) P E g :=
    ends_call hg fun _ _ => h
  apply ends_call paced_empty
  intro start _
  have hstarted : Paced (next {} .steadyNow start) r env.bufferSize := ⟨le_rfl, .inl rfl⟩
  apply ends_call hstarted
  intro opened _
  cases opened with
  | none => exact hclose hstarted (ends_pure hstarted)
  | some file_fd =>
    apply ends_call hstarted
    intro st _
    rcases st with _ | ⟨_ | _, size⟩
    · exact hclose hstarted (hclose hstarted (ends_pure hstarted))
    · exact hclose hstarted (hclose hstarted (ends_pure hstarted))
    · refine ends_ite (fun _ => hclose hstarted (hclose hstarted (ends_pure hstarted))) fun _ => ?_
      apply ends_bind
      apply (sendOpened_paced hr hrate hmode data_fd file_fd start size ⟨rfl, rfl, hstarted⟩).mono _ fun _ => id
      exact fun _ g' h' => hclose h' (hclose h' (ends_pure h'))

lemma handleRETR_paced (hr : 0 < r) (hrate : env.config_.rate_limit.max_transfer_rate = r)
    (hmode : s.transferModeZ = false) (filename : Str) :
    Ends (metered r env.bufferSize) (s.handleRETR env filename) (fun _ g' => g'.Paced r env.bufferSize)
      (fun g' => g'.Paced r env.bufferSize) {} := by
  have hrefusal : s.modeZRefusal env = pure none := by
    rw [modeZRefusal, if_pos (by simp [hmode])]
  apply ends_call paced_empty
  intro fs _
  refine ends_ite (fun _ => ends_reply paced_empty (ends_pure paced_empty) paced_empty) fun _ => ?_
  refine ends_ite (fun _ => ends_reply paced_empty (ends_pure paced_empty) paced_empty) fun _ => ?_
  apply ends_call paced_empty
  intro found _
  cases found with
  | error e => exact paced_empty
  | ok found =>
    refine ends_ite (fun _ => ends_reply paced_empty (ends_pure paced_empty) paced_empty) fun _ => ?_
    rw [hrefusal]
    apply ends_reply paced_empty ?_ paced_empty
    refine ends_unmetered (acceptDataConnection_unmetered s.data) paced_empty ?_ paced_empty
    rintro ⟨_ | ⟨data_fd, peer⟩, d⟩ _
    · exact ends_reply paced_empty (ends_pure paced_empty) paced_empty
    · apply ends_bind
      apply (retrieveTo_paced hr hrate hmode data_fd _).mono _ fun _ => id
      intro reply g' h'
      exact ends_reply h' (ends_pure h') h'

structure Counting (start r B total : ℕ) (g : Meter) : Prop where
  start : g.start = some start
  received : g.received = total
  moved : g.moved ≤ total
  paced : g.Paced r B

lemma waits_recv (g : Meter) (fd : Fd) (chunk : Option Str) : Waits g (g.next (.recv fd chunk) ()) := by
  cases chunk with
  | none => exact ⟨rfl, le_rfl, le_rfl, rfl, rfl⟩
  | some chunk => exact ⟨rfl, le_rfl, Nat.le_add_right _ _, rfl, rfl⟩

lemma receiveLoop_paced (hr : 0 < r) {rate : Int} (hrate : rate = r) (start : ℕ) (fd : Fd) (peer : Peer)
    (chunks : List Str)
    {E : Meter → Prop} : ∀ (total : ℕ) (f : OutFile) (g : Meter), Counting start r B total g →
      Ends (metered r B) (receiveLoop rate start fd peer chunks total f) (fun _ g' => g'.Paced r B) E g := by
  induction chunks with
  | nil =>
    intro total f g h
    apply ends_call h.paced
    exact fun _ _ => ends_pure (h.paced.waits (waits_recv g fd _))
  | cons chunk chunks ih =>
    intro total f g h
    apply ends_call h.paced
    intro _ _
    have hgot : Waits g (g.next (.recv fd (some chunk)) ()) := waits_recv g fd _
    have hreceived : (g.next (.recv fd (some chunk)) ()).received = total + chunk.length := by
      change g.received + chunk.length = _
      rw [h.received]
    have hpaced : (g.next (.recv fd (some chunk)) ()).Paced r B := h.paced.waits hgot
    apply ends_bind
    apply (applyThrottle_ready hr hrate (hgot.start.trans h.start) hpaced (by omega)).mono _ fun _ => id
    rintro _ g' ⟨hwaits, hsame, hready⟩
    have hmoved : g'.moved = g.moved := hwaits.moved.trans hgot.moved
    have hpaced' : g'.Paced r B := hpaced.waits hwaits
    have hreceives : Counting start r B (total + chunk.length) g' :=
      ⟨hwaits.start.trans (hgot.start.trans h.start), hsame.trans hreceived,
        hmoved.le.trans (h.moved.trans (Nat.le_add_right _ _)), hpaced'⟩
    have hwritten : Counting start r B (total + chunk.length) (g'.took chunk.length) := by
      have hcount : g'.moved + chunk.length ≤ total + chunk.length := by
        rw [hmoved]
        exact Nat.add_le_add_right h.moved _
      exact ⟨hreceives.start, hreceives.received, hcount,
        hready.took hpaced'.1 (hcount.trans (Nat.le_add_right _ _))⟩
    apply ends_bind
    rw [OutFile.write]
    apply ends_ite
    · exact fun _ => ends_pure (ih _ _ _ hreceives)
    · intro _
      apply ends_call hpaced'
      exact fun _ _ => ends_pure (ih _ _ _ hwritten)

lemma receiveTo_paced (hr : 0 < r) (hrate : env.config_.rate_limit.max_transfer_rate = r)
    (hmode : s.transferModeZ = false)
    (data_fd : Fd) (peer : Peer) (f : OutFile) {E : Meter → Prop} :
    Ends (metered r B) (s.receiveTo env data_fd peer f) (fun _ g' => g'.Paced r B) E {} := by
  apply ends_call paced_empty
  intro start _
  refine ends_ite (fun hz => absurd (hmode.symm.trans hz) Bool.false_ne_true) fun _ => ?_
  apply ends_bind
  have hstarted : Counting start r B 0 (next {} .steadyNow start) := ⟨rfl, rfl, le_rfl, ⟨le_rfl, .inl rfl⟩⟩
  apply (receiveLoop_paced hr hrate start data_fd peer peer.chunks 0 f _ hstarted).mono _ fun _ => id
  intro _ g' h'
  apply ends_call h'
  intro _ _
  apply ends_call h'
  exact fun _ _ => ends_pure h'

lemma storeFrom_paced (hr : 0 < r) (hrate : env.config_.rate_limit.max_transfer_rate = r)
    (hmode : s.transferModeZ = false)
    (data_fd : Fd) (peer : Peer) (filepath : Str) :
    Ends (metered r B) (s.storeFrom env data_fd peer filepath) (fun _ g' => g'.Paced r B)
      (fun g' => g'.Paced r B) {} := by
  have hparent : (if Path.hasParentPath filepath then do
      let _ ← orThrow (← perform (.createDirectories (Path.parentPath filepath)))
      return ()
    else return () : Io Unit).Within (Kinds [.change]) fun _ => True := by
    simp [within_bind, Call.kind]
  apply ends_aside hparent (by decide) paced_empty ?_ paced_empty
  intro _ _
  have htarget : (s.openTarget filepath).Within (Kinds [.query, .change]) fun _ => True :=
    openTarget_within (List.Subset.refl _) filepath
  apply ends_aside htarget (by decide) paced_empty ?_ paced_empty
  intro opened _
  cases opened with
  | none =>
    apply ends_call paced_empty
    exact fun _ _ => ends_pure paced_empty
  | some f => exact receiveTo_paced hr hrate hmode data_fd peer f

lemma handleSTOR_paced (hr : 0 < r) (hrate : env.config_.rate_limit.max_transfer_rate = r)
    (hmode : s.transferModeZ = false) (filename : Str) :
    Ends (metered r B) (s.handleSTOR env filename) (fun _ g' => g'.Paced r B) (fun g' => g'.Paced r B) {} := by
  have hrefusal : s.modeZRefusal env = pure none := by
    rw [modeZRefusal, if_pos (by simp [hmode])]
  apply ends_call paced_empty
  intro fs _
  refine ends_ite (fun _ => ends_reply paced_empty (ends_pure paced_empty) paced_empty) fun _ => ?_
  refine ends_ite (fun _ => ends_reply paced_empty (ends_pure paced_empty) paced_empty) fun _ => ?_
  apply ends_aside (quotaExceeded_within (List.mem_singleton_self _)) (by decide) paced_empty ?_ paced_empty
  intro exceeded _
  refine ends_ite (fun _ => ends_reply paced_empty (ends_pure paced_empty) paced_empty) fun _ => ?_
  rw [hrefusal]
  apply ends_reply paced_empty ?_ paced_empty
  refine ends_unmetered (acceptDataConnection_unmetered s.data) paced_empty ?_ paced_empty
  rintro ⟨_ | ⟨data_fd, peer⟩, d⟩ _
  · exact ends_reply paced_empty (ends_pure paced_empty) paced_empty
  · apply ends_bind
    apply (storeFrom_paced hr hrate hmode data_fd peer _).mono _ fun _ => id
    intro reply g' h'
    exact ends_reply h' (ends_pure h') h'

end Session

end SimpleSftpd
