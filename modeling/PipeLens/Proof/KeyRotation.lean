import PipeLens.Auth

/-!
# Key rotation keeps every session

While the instances move from stage to stage, a stored token may go back and forth
between the two keys. What must not happen is that an instance reads one it has no
key for. Two facts exclude it. The new key is in use only once some instance has
entered the third stage, and then every instance has it in its ring. The old key is in
use only for sessions that existed when the last instance entered the third stage, and
these have expired when the first instance enters the fourth.

`Held` says this of one ciphertext. It is kept by everything that can happen to the
deployment, so it also holds of what a call has read some time ago.
-/

namespace PipeLens.Proof

open PipeLens Transition

variable {κ τ ω : Type} [DecidableEq κ] [DecidableEq ω] [Fintype ω]
  {fernet : Fernet κ τ} {old new : κ} {lifetime : Duration}

/-! ## The steps -/

/-- The steps, each with what it needs. -/
inductive RotationStep (fernet : Fernet κ τ) (old new : κ) (lifetime : Duration)
    (s : Deployment ω τ) : RotationLabel ω → Deployment ω τ → Prop where
  | tick (d : Nat) : RotationStep fernet old new lifetime s (.tick d) { s with now := s.now + d }
  | deploy (w : ω) (stage : RotationStage) (hnext : (s.stage w).next = some stage)
      (hmay : s.MayDeploy lifetime w) :
      RotationStep fernet old new lifetime s (.deploy w)
        { s with
          stage := Function.update s.stage w stage
          thirdAt :=
            if s.thirdAt = none ∧ { s with stage := Function.update s.stage w stage }.Reached 3
            then some s.now else s.thirdAt }
  | login (w : ω) (sessionHash : String) (user : GitHubUser) (accessToken : String)
      (expiresIn : Option Duration) (nonce : Nat) (hfresh : s.issued sessionHash = none) :
      RotationStep fernet old new lifetime s
        (.login w sessionHash user accessToken expiresIn nonce)
        { s with
          sessions := Function.update s.sessions sessionHash (some
            { githubUserId := user.githubUserId
              encryptedAccessToken :=
                fernet.encrypt ((s.stage w).keys old new).primary nonce accessToken.toUTF8
              expiresAt := s.now + Deployment.sessionTtl lifetime expiresIn })
          users := Function.update s.users user.githubUserId (some user)
          issued := Function.update s.issued sessionHash
            (some ⟨accessToken, s.now + Deployment.sessionTtl lifetime expiresIn⟩) }
  | authenticate (w : ω) (sessionHash : String) :
      RotationStep fernet old new lifetime s (.authenticate w sessionHash)
        { s with calls := s.calls ++ [⟨w, sessionHash, s.getAuthSession sessionHash, none,
          .fetched⟩] }
  | check (i : Nat) (call : AuthCall ω τ) (hi : s.calls[i]? = some call)
      (hphase : call.phase = .fetched) :
      RotationStep fernet old new lifetime s (.check i)
        (s.setCall i { call with
          checkedAt := some s.now
          phase := checkSession fernet ((s.stage call.api).keys old new) s.now call.sessionHash
            call.row })
  | write (i : Nat) (nonce : Nat) (call : AuthCall ω τ) (token : ByteArray)
      (session : AuthSession τ) (user : GitHubUser) (hi : s.calls[i]? = some call)
      (hphase : call.phase = .rewriting token) (hrow : call.row = some (session, user)) :
      RotationStep fernet old new lifetime s (.write i nonce)
        ((s.setSession call.sessionHash ((s.sessions call.sessionHash).map fun session =>
            { session with
              encryptedAccessToken :=
                fernet.encrypt ((s.stage call.api).keys old new).primary nonce token })).setCall i
          { call with phase := decodeToken call.sessionHash user token })
  | delete (i : Nat) (call : AuthCall ω τ) (hi : s.calls[i]? = some call)
      (hphase : call.phase = .deleting) :
      RotationStep fernet old new lifetime s (.delete i)
        ((s.setSession call.sessionHash none).setCall i { call with phase := .returned none })

/-- **Every step is one of these.** -/
theorem rotationStep {s s' : Deployment ω τ} {l : RotationLabel ω}
    (h : s.step fernet old new lifetime l = some s') :
    RotationStep fernet old new lifetime s l s' := by
  cases l with
  | tick d => rw [← Option.some.inj h]; exact .tick d
  | deploy w =>
      simp only [Deployment.step] at h
      split at h
      · exact absurd h (by simp)
      · rename_i stage hnext
        split at h
        · rename_i hmay
          rw [← Option.some.inj h]
          exact .deploy w stage hnext hmay
        · exact absurd h (by simp)
  | login w sessionHash user accessToken expiresIn nonce =>
      simp only [Deployment.step] at h
      split at h
      · rename_i hfresh
        rw [← Option.some.inj h]
        exact .login w sessionHash user accessToken expiresIn nonce hfresh
      · exact absurd h (by simp)
  | authenticate w sessionHash => rw [← Option.some.inj h]; exact .authenticate w sessionHash
  | check i =>
      simp only [Deployment.step] at h
      split at h
      · exact absurd h (by simp)
      · rename_i call hi
        split at h
        · rename_i hphase
          rw [← Option.some.inj h]
          exact .check i call hi hphase
        · exact absurd h (by simp)
  | write i nonce =>
      simp only [Deployment.step] at h
      split at h
      · exact absurd h (by simp)
      · rename_i call hi
        split at h
        · rename_i token session user hphase hrow
          rw [← Option.some.inj h]
          exact .write i nonce call token session user hi hphase hrow
        · exact absurd h (by simp)
  | delete i =>
      simp only [Deployment.step] at h
      split at h
      · exact absurd h (by simp)
      · rename_i call hi
        split at h
        · rename_i hphase
          rw [← Option.some.inj h]
          exact .delete i call hi hphase
        · exact absurd h (by simp)

/-! ## Stages and the clock -/

/-- The order in which the stages are entered. -/
structure Paced (lifetime : Duration) (s : Deployment ω τ) : Prop where
  /-- No instance is more than one stage ahead of another. -/
  close : ∀ v w, (s.stage v).rank ≤ (s.stage w).rank + 1
  third : ∀ t, s.thirdAt = some t → s.Reached 3 ∧ t ≤ s.now
  last : ∀ w, s.stage w = .newPrimary → ∃ t, s.thirdAt = some t ∧ t + lifetime ≤ s.now

omit [DecidableEq ω] [Fintype ω] in
theorem paced_init (now : Instant) : Paced lifetime (Deployment.init now : Deployment ω τ) where
  close := fun _ _ => by simp [Deployment.init, RotationStage.rank]
  third := fun t h => absurd h (by simp [Deployment.init])
  last := fun w h => absurd h (by simp [Deployment.init])

theorem rank_next {stage stage' : RotationStage} (h : stage.next = some stage') :
    stage'.rank = stage.rank + 1 := by
  cases stage <;> simp only [RotationStage.next, Option.some.injEq, reduceCtorEq] at h <;>
    rw [← h] <;> rfl

/-- What only ever grows. -/
structure Advances (s s' : Deployment ω τ) : Prop where
  now : s.now ≤ s'.now
  stage : ∀ w, (s.stage w).rank ≤ (s'.stage w).rank
  issued : ∀ hash i, s.issued hash = some i → s'.issued hash = some i
  /-- If the third stage is entered by the last instance, it is now. -/
  third : ∀ t, s'.thirdAt = some t → s.thirdAt = some t ∨ t = s.now

section Step

variable {s s' : Deployment ω τ} {l : RotationLabel ω}

theorem advances (h : RotationStep fernet old new lifetime s l s') : Advances s s' := by
  have hsame : ∀ t, s.thirdAt = some t → s.thirdAt = some t ∨ t = s.now := fun _ => Or.inl
  cases h with
  | tick d =>
      exact ⟨Int.le_add_of_nonneg_right (Int.natCast_nonneg d), fun _ => le_refl _,
        fun _ _ hi => hi, hsame⟩
  | deploy w stage hnext hmay =>
      refine ⟨le_refl _, fun v => ?_, fun _ _ hi => hi, fun t ht => ?_⟩
      · dsimp only
        by_cases hv : v = w
        · subst hv
          rw [Function.update_self, rank_next hnext]
          omega
        · rw [Function.update_of_ne hv]
      · dsimp only at ht
        split at ht
        · exact Or.inr (Option.some.inj ht).symm
        · exact Or.inl ht
  | login w sessionHash user accessToken expiresIn nonce hfresh =>
      refine ⟨le_refl _, fun _ => le_refl _, fun hash i hi => ?_, hsame⟩
      dsimp only
      by_cases hhash : hash = sessionHash
      · rw [hhash, hfresh] at hi
        exact absurd hi (by simp)
      · rw [Function.update_of_ne hhash]
        exact hi
  | authenticate w sessionHash =>
      exact ⟨le_refl _, fun _ => le_refl _, fun _ _ hi => hi, hsame⟩
  | check i call hi hphase => exact ⟨le_refl _, fun _ => le_refl _, fun _ _ hi => hi, hsame⟩
  | write i nonce call token session user hi hphase hrow =>
      exact ⟨le_refl _, fun _ => le_refl _, fun _ _ hi => hi, hsame⟩
  | delete i call hi hphase => exact ⟨le_refl _, fun _ => le_refl _, fun _ _ hi => hi, hsame⟩

omit [DecidableEq ω] [Fintype ω] in
theorem Paced.frame (h : Paced lifetime s) (hnow : s.now ≤ s'.now) (hstage : s'.stage = s.stage)
    (hthird : s'.thirdAt = s.thirdAt) : Paced lifetime s' where
  close := by rw [hstage]; exact h.close
  third := by
    intro t ht
    rw [hthird] at ht
    obtain ⟨hreached, hle⟩ := h.third t ht
    refine ⟨fun w => ?_, hle.trans hnow⟩
    rw [hstage]
    exact hreached w
  last := by
    intro w hw
    rw [hstage] at hw
    obtain ⟨t, ht, hle⟩ := h.last w hw
    exact ⟨t, hthird.trans ht, hle.trans hnow⟩

theorem paced_step (h : Paced lifetime s) (hs : RotationStep fernet old new lifetime s l s') :
    Paced lifetime s' := by
  cases hs with
  | tick d => exact h.frame (Int.le_add_of_nonneg_right (Int.natCast_nonneg d)) rfl rfl
  | login => exact h.frame (le_refl _) rfl rfl
  | authenticate => exact h.frame (le_refl _) rfl rfl
  | check => exact h.frame (le_refl _) rfl rfl
  | write => exact h.frame (le_refl _) rfl rfl
  | delete => exact h.frame (le_refl _) rfl rfl
  | deploy w stage hnext hmay =>
      obtain ⟨hreached, hlife, _⟩ := hmay
      have hrank := rank_next hnext
      refine ⟨fun u v => ?_, fun t ht => ?_, fun v hv => ?_⟩
      · -- whoever moves is no further than the slowest before
        have hu := hreached u
        have hv := hreached v
        have huv := h.close u v
        have hwv := h.close w v
        dsimp only
        by_cases heu : u = w
        · by_cases hev : v = w
          · rw [heu, hev]
            omega
          · rw [heu, Function.update_self, Function.update_of_ne hev]
            omega
        · by_cases hev : v = w
          · have huw := h.close u w
            rw [hev, Function.update_self, Function.update_of_ne heu]
            omega
          · rw [Function.update_of_ne heu, Function.update_of_ne hev]
            exact huv
      · dsimp only at ht
        split at ht
        · rename_i hthird
          rw [← Option.some.inj ht]
          exact ⟨hthird.2, le_refl _⟩
        · obtain ⟨hall, hle⟩ := h.third t ht
          refine ⟨fun v => ?_, hle⟩
          dsimp only
          by_cases hev : v = w
          · rw [hev, Function.update_self, hrank]
            have := hall w
            omega
          · rw [Function.update_of_ne hev]
            exact hall v
      · have hfourth : ∃ t, s.thirdAt = some t ∧ t + lifetime ≤ s.now := by
          dsimp only at hv
          by_cases hev : v = w
          · rw [hev, Function.update_self] at hv
            have hthis : s.stage w = .newPrimaryOldFallback := by
              rw [hv] at hnext
              cases hw : s.stage w <;> rw [hw] at hnext <;> simp [RotationStage.next] at hnext ⊢
            obtain ⟨t, ht, hle⟩ := (Option.any_eq_true _ _).mp (hlife hthis)
            exact ⟨t, ht, of_decide_eq_true hle⟩
          · rw [Function.update_of_ne hev] at hv
            exact h.last v hv
        obtain ⟨t, ht, hle⟩ := hfourth
        refine ⟨t, ?_, hle⟩
        dsimp only
        rw [if_neg (by rw [ht]; simp), ht]

end Step

/-! ## What a key ring decrypts -/

omit [DecidableEq ω] [Fintype ω] in
theorem fold_mem {key : κ} (keys : List κ) (ring : List κ) :
    key ∈ keys.foldl (fun ring key => if key ∈ ring then ring else ring ++ [key]) ring
      ↔ key ∈ ring ∨ key ∈ keys := by
  induction keys generalizing ring with
  | nil => simp
  | cons k keys ih =>
      rw [List.foldl_cons, ih]
      by_cases hk : k ∈ ring
      · rw [if_pos hk, List.mem_cons]
        constructor
        · rintro (h | h)
          · exact Or.inl h
          · exact Or.inr (Or.inr h)
        · rintro (h | rfl | h)
          · exact Or.inl h
          · exact Or.inl hk
          · exact Or.inr h
      · rw [if_neg hk, List.mem_append, List.mem_singleton, List.mem_cons, or_assoc]

theorem mem_ring {keys : TokenKeys κ} {key : κ} :
    key ∈ keys.ring ↔ key = keys.primary ∨ key ∈ keys.fallbacks := by
  unfold TokenKeys.ring
  rw [fold_mem, List.mem_cons]
  simp

/-- A ring with the right key decrypts, and to the right token. -/
theorem decrypt_of_mem {keys : TokenKeys κ} {key : κ} (h : key ∈ keys.ring) (nonce : Nat)
    (token : ByteArray) : keys.decrypt fernet (fernet.encrypt key nonce token) = some token := by
  unfold TokenKeys.decrypt
  revert h
  induction keys.ring with
  | nil => intro h; exact absurd h (by simp)
  | cons k ring ih =>
      intro h
      by_cases hk : k = key
      · rw [List.findSome?_cons, hk, fernet.decrypt_own]
      · rw [List.findSome?_cons, fernet.decrypt_other key k nonce token (Ne.symm hk)]
        exact ih ((List.mem_cons.mp h).resolve_left (Ne.symm hk))

theorem decodeToken_toUTF8 (sessionHash : String) (user : GitHubUser) (token : String) :
    decodeToken sessionHash user token.toUTF8 = .returned (some ⟨sessionHash, user, token⟩) := by
  have hdecode : String.fromUTF8? token.toUTF8 = some token := dif_pos token.isValidUTF8
  unfold decodeToken
  rw [hdecode]

/-! ## The keys a token can be under -/

/-- The session has the token that was issued, under a key that is in use for it. -/
def Held (fernet : Fernet κ τ) (old new : κ) (lifetime : Duration) (s : Deployment ω τ)
    (sessionHash : String) (session : AuthSession τ) : Prop :=
  ∃ token nonce key, s.issued sessionHash = some ⟨token, session.expiresAt⟩
    ∧ session.encryptedAccessToken = fernet.encrypt key nonce token.toUTF8
    ∧ session.expiresAt ≤ s.now + lifetime
    ∧ ((key = new ∧ ∃ v, 3 ≤ (s.stage v).rank)
      ∨ (key = old ∧ ∀ t, s.thirdAt = some t → session.expiresAt ≤ t + lifetime))

section Held

variable {s s' : Deployment ω τ} {sessionHash : String} {session : AuthSession τ}

omit [DecidableEq κ] [DecidableEq ω] [Fintype ω] in
theorem Held.advances (h : Held fernet old new lifetime s sessionHash session)
    (ha : Advances s s') : Held fernet old new lifetime s' sessionHash session := by
  obtain ⟨token, nonce, key, hissued, htext, hend, hkey⟩ := h
  have hend' : session.expiresAt ≤ s'.now + lifetime :=
    hend.trans (Int.add_le_add_right ha.now lifetime)
  refine ⟨token, nonce, key, ha.issued _ _ hissued, htext, hend', ?_⟩
  rcases hkey with ⟨rfl, v, hv⟩ | ⟨rfl, hthird⟩
  · exact Or.inl ⟨rfl, v, hv.trans (ha.stage v)⟩
  · refine Or.inr ⟨rfl, fun t ht => ?_⟩
    rcases ha.third t ht with hold | rfl
    · exact hthird t hold
    · exact hend

omit [DecidableEq κ] [DecidableEq ω] [Fintype ω] in
/-- What an instance encrypts is held. -/
theorem held_encrypt (hp : Paced lifetime s) (w : ω) (token : String) (nonce : Nat)
    (hissued : s.issued sessionHash = some ⟨token, session.expiresAt⟩)
    (htext : session.encryptedAccessToken
      = fernet.encrypt ((s.stage w).keys old new).primary nonce token.toUTF8)
    (hend : session.expiresAt ≤ s.now + lifetime) :
    Held fernet old new lifetime s sessionHash session := by
  refine ⟨token, nonce, _, hissued, htext, hend, ?_⟩
  -- an instance with the old primary key is itself not in the third stage
  have hnot : (s.stage w).rank < 3 → ∀ t, s.thirdAt = some t →
      session.expiresAt ≤ t + lifetime := by
    intro hlt t ht
    have hall := (hp.third t ht).1 w
    omega
  cases hw : s.stage w with
  | oldPrimary => exact Or.inr ⟨rfl, hnot (by rw [hw]; decide)⟩
  | oldPrimaryNewFallback => exact Or.inr ⟨rfl, hnot (by rw [hw]; decide)⟩
  | newPrimaryOldFallback => exact Or.inl ⟨rfl, w, by rw [hw]; decide⟩
  | newPrimary => exact Or.inl ⟨rfl, w, by rw [hw]; decide⟩

omit [DecidableEq ω] [Fintype ω] in
/-- **Every instance has the key of an unexpired session in its ring.** -/
theorem Held.mem_ring (h : Held fernet old new lifetime s sessionHash session)
    (hp : Paced lifetime s) (w : ω) (hlive : s.now < session.expiresAt) :
    ∃ token nonce key, s.issued sessionHash = some ⟨token, session.expiresAt⟩
      ∧ session.encryptedAccessToken = fernet.encrypt key nonce token.toUTF8
      ∧ key ∈ ((s.stage w).keys old new).ring := by
  obtain ⟨token, nonce, key, hissued, htext, _, hkey⟩ := h
  refine ⟨token, nonce, key, hissued, htext, Proof.mem_ring.mpr ?_⟩
  rcases hkey with ⟨rfl, v, hv⟩ | ⟨rfl, hthird⟩
  · have hclose := hp.close v w
    cases hw : s.stage w with
    | oldPrimary =>
        have hone : RotationStage.oldPrimary.rank = 1 := rfl
        rw [hw, hone] at hclose
        omega
    | oldPrimaryNewFallback => exact Or.inr List.mem_cons_self
    | newPrimaryOldFallback => exact Or.inl rfl
    | newPrimary => exact Or.inl rfl
  · cases hw : s.stage w with
    | oldPrimary => exact Or.inl rfl
    | oldPrimaryNewFallback => exact Or.inl rfl
    | newPrimaryOldFallback => exact Or.inr List.mem_cons_self
    | newPrimary =>
        obtain ⟨t, ht, hle⟩ := hp.last w hw
        have hend := hthird t ht
        exact absurd (hend.trans hle) (not_le.mpr hlive)

omit [DecidableEq ω] [Fintype ω] in
/-- **What `authenticate` makes of a session it has read.** -/
theorem checkSession_held (h : Held fernet old new lifetime s sessionHash session)
    (hp : Paced lifetime s) (w : ω) (user : GitHubUser) (hlive : s.now < session.expiresAt) :
    ∃ token, s.issued sessionHash = some ⟨token, session.expiresAt⟩
      ∧ ((∃ text, fernet.decrypt ((s.stage w).keys old new).primary session.encryptedAccessToken
            = some text ∧ checkSession fernet ((s.stage w).keys old new) s.now sessionHash
              (some (session, user)) = .returned (some ⟨sessionHash, user, token⟩))
        ∨ (fernet.decrypt ((s.stage w).keys old new).primary session.encryptedAccessToken = none
          ∧ checkSession fernet ((s.stage w).keys old new) s.now sessionHash (some (session, user))
            = .rewriting token.toUTF8)) := by
  obtain ⟨token, nonce, key, hissued, htext, hmem⟩ := h.mem_ring hp w hlive
  refine ⟨token, hissued, ?_⟩
  simp only [checkSession, if_neg (not_le.mpr hlive), htext]
  by_cases hkey : key = ((s.stage w).keys old new).primary
  · have hown : fernet.decrypt ((s.stage w).keys old new).primary
        (fernet.encrypt key nonce token.toUTF8) = some token.toUTF8 := by
      rw [← hkey]
      exact fernet.decrypt_own ..
    rw [hown]
    exact Or.inl ⟨_, rfl, decodeToken_toUTF8 ..⟩
  · rw [fernet.decrypt_other key _ nonce _ hkey, decrypt_of_mem hmem]
    exact Or.inr ⟨rfl, rfl⟩

end Held

/-! ## The invariant -/

/-- What a call knows of its session. -/
structure CallHeld (fernet : Fernet κ τ) (old new : κ) (lifetime : Duration) (s : Deployment ω τ)
    (call : AuthCall ω τ) : Prop where
  fetched : call.phase = .fetched → ∀ session user, call.row = some (session, user) →
    Held fernet old new lifetime s call.sessionHash session
  rewriting : ∀ text, call.phase = .rewriting text → ∀ session user,
    call.row = some (session, user) → ∃ token, text = token.toUTF8
      ∧ s.issued call.sessionHash = some ⟨token, session.expiresAt⟩
  /-- Only an expired session is deleted. -/
  deleting : call.phase = .deleting →
    (∃ i, s.issued call.sessionHash = some i ∧ i.expiresAt ≤ s.now)
    ∧ ∀ session user t, call.row = some (session, user) → call.checkedAt = some t →
      session.expiresAt ≤ t
  returned : ∀ result, call.phase = .returned result → ∀ session user t,
    call.row = some (session, user) → call.checkedAt = some t → t < session.expiresAt →
    ∃ token, result = some ⟨call.sessionHash, user, token⟩
      ∧ s.issued call.sessionHash = some ⟨token, session.expiresAt⟩

structure RotationInv (fernet : Fernet κ τ) (old new : κ) (lifetime : Duration)
    (s : Deployment ω τ) : Prop where
  paced : Paced lifetime s
  stored : ∀ hash session, s.sessions hash = some session →
    Held fernet old new lifetime s hash session ∧ (s.users session.githubUserId).isSome = true
  calls : ∀ call ∈ s.calls, CallHeld fernet old new lifetime s call

section Inv

variable {s s' : Deployment ω τ} {l : RotationLabel ω}

omit [DecidableEq κ] [DecidableEq ω] [Fintype ω] in
theorem rotationInv_init (now : Instant) :
    RotationInv fernet old new lifetime (Deployment.init now : Deployment ω τ) where
  paced := paced_init now
  stored := fun _ _ h => absurd h (by simp [Deployment.init])
  calls := fun _ h => absurd h (by simp [Deployment.init])

omit [DecidableEq κ] [DecidableEq ω] [Fintype ω] in
theorem CallHeld.advances {call : AuthCall ω τ} (h : CallHeld fernet old new lifetime s call)
    (ha : Advances s s') : CallHeld fernet old new lifetime s' call where
  fetched := fun hp session user hrow => (h.fetched hp session user hrow).advances ha
  rewriting := by
    intro text hp session user hrow
    obtain ⟨token, htext, hissued⟩ := h.rewriting text hp session user hrow
    exact ⟨token, htext, ha.issued _ _ hissued⟩
  deleting := by
    intro hp
    obtain ⟨⟨i, hi, hle⟩, hexpired⟩ := h.deleting hp
    exact ⟨⟨i, ha.issued _ _ hi, hle.trans ha.now⟩, hexpired⟩
  returned := by
    intro result hp session user t hrow hat hlive
    obtain ⟨token, hres, hissued⟩ := h.returned result hp session user t hrow hat hlive
    exact ⟨token, hres, ha.issued _ _ hissued⟩

omit [DecidableEq ω] [Fintype ω] in
/-- A call that has just been checked. -/
theorem callHeld_check (hi : RotationInv fernet old new lifetime s) {call : AuthCall ω τ}
    (hcall : call ∈ s.calls) (hphase : call.phase = .fetched) :
    CallHeld fernet old new lifetime s { call with
      checkedAt := some s.now
      phase := checkSession fernet ((s.stage call.api).keys old new) s.now call.sessionHash
        call.row } := by
  have hheld := (hi.calls call hcall).fetched hphase
  cases hrow : call.row with
  | none =>
      refine ⟨fun _ _ _ h => absurd h (by simp), fun _ _ _ _ h => absurd h (by simp),
        fun h => absurd h (by simp [checkSession]), fun _ _ _ _ _ h => absurd h (by simp)⟩
  | some row =>
      obtain ⟨session, user⟩ := row
      have hsession := hheld session user hrow
      by_cases hlive : s.now < session.expiresAt
      · obtain ⟨token, hissued, ⟨_, _, hphase'⟩ | ⟨_, hphase'⟩⟩ :=
          checkSession_held hsession hi.paced call.api user hlive
        · rw [hphase']
          refine ⟨fun h => absurd h (by simp), fun _ h => absurd h (by simp),
            fun h => absurd h (by simp), fun result h session' user' t hrow' _ _ => ?_⟩
          rw [← AuthPhase.returned.inj h]
          obtain ⟨rfl, rfl⟩ := Prod.mk.inj (Option.some.inj hrow')
          exact ⟨token, rfl, hissued⟩
        · rw [hphase']
          refine ⟨fun h => absurd h (by simp), fun text h session' user' hrow' => ?_,
            fun h => absurd h (by simp), fun _ h => absurd h (by simp)⟩
          obtain ⟨rfl, rfl⟩ := Prod.mk.inj (Option.some.inj hrow')
          exact ⟨token, (AuthPhase.rewriting.inj h).symm, hissued⟩
      · have hexpired := not_lt.mp hlive
        obtain ⟨token, _, _, hissued, _⟩ := hsession
        simp only [checkSession, if_pos hexpired]
        refine ⟨fun h => absurd h (by simp), fun _ h => absurd h (by simp),
          fun _ => ⟨⟨_, hissued, hexpired⟩, fun session' user' t hrow' ht => ?_⟩,
          fun _ h => absurd h (by simp)⟩
        obtain ⟨rfl, rfl⟩ := Prod.mk.inj (Option.some.inj hrow')
        rw [← Option.some.inj ht]
        exact hexpired

omit [DecidableEq κ] [DecidableEq ω] [Fintype ω] in
/-- A call that has just written its token back. -/
theorem callHeld_write {call : AuthCall ω τ} (h : CallHeld fernet old new lifetime s call)
    {text : ByteArray} {session : AuthSession τ} {user : GitHubUser}
    (hphase : call.phase = .rewriting text) (hrow : call.row = some (session, user)) :
    CallHeld fernet old new lifetime s
      { call with phase := decodeToken call.sessionHash user text } := by
  obtain ⟨token, rfl, hissued⟩ := h.rewriting text hphase session user hrow
  rw [decodeToken_toUTF8]
  refine ⟨fun h => absurd h (by simp), fun _ h => absurd h (by simp), fun h => absurd h (by simp),
    fun result hres session' user' t hrow' _ _ => ?_⟩
  have hrow'' : call.row = some (session', user') := hrow'
  rw [hrow] at hrow''
  obtain ⟨rfl, rfl⟩ := Prod.mk.inj (Option.some.inj hrow'')
  rw [← AuthPhase.returned.inj hres]
  exact ⟨token, rfl, hissued⟩

omit [DecidableEq κ] [DecidableEq ω] [Fintype ω] in
/-- A call that has just deleted its session. -/
theorem callHeld_delete {call : AuthCall ω τ} (h : CallHeld fernet old new lifetime s call)
    (hphase : call.phase = .deleting) :
    CallHeld fernet old new lifetime s { call with phase := .returned none } := by
  refine ⟨fun h => absurd h (by simp), fun _ h => absurd h (by simp), fun h => absurd h (by simp),
    fun result _ session user t hrow ht hlive => ?_⟩
  exact absurd ((h.deleting hphase).2 session user t hrow ht) (not_le.mpr hlive)

theorem stored_step (hi : RotationInv fernet old new lifetime s)
    (hs : RotationStep fernet old new lifetime s l s') {hash : String} {session : AuthSession τ}
    (hsession : s'.sessions hash = some session) :
    Held fernet old new lifetime s' hash session
      ∧ (s'.users session.githubUserId).isSome = true := by
  have ha := advances hs
  have hp := paced_step hi.paced hs
  have hold : s.sessions hash = some session → s'.users = s.users →
      Held fernet old new lifetime s' hash session
        ∧ (s'.users session.githubUserId).isSome = true := by
    intro h husers
    obtain ⟨hheld, huser⟩ := hi.stored hash session h
    exact ⟨hheld.advances ha, by rw [husers]; exact huser⟩
  cases hs with
  | tick | deploy | authenticate | check => exact hold hsession rfl
  | login w sessionHash user accessToken expiresIn nonce hfresh =>
      dsimp only at hsession ⊢
      by_cases hhash : hash = sessionHash
      · subst hhash
        rw [Function.update_self] at hsession
        rw [← Option.some.inj hsession]
        refine ⟨held_encrypt hp w accessToken nonce (Function.update_self ..) rfl ?_, by simp⟩
        have httl : Deployment.sessionTtl lifetime expiresIn ≤ lifetime := by
          cases expiresIn with
          | none => exact le_refl _
          | some d => exact min_le_left _ _
        exact Int.add_le_add_left httl s.now
      · rw [Function.update_of_ne hhash] at hsession
        obtain ⟨hheld, huser⟩ := hi.stored hash session hsession
        refine ⟨hheld.advances ha, ?_⟩
        by_cases hid : session.githubUserId = user.githubUserId
        · rw [hid, Function.update_self]
          rfl
        · rw [Function.update_of_ne hid]
          exact huser
  | write i nonce call text read user hcall hphase hrow =>
      by_cases hhash : hash = call.sessionHash
      · subst hhash
        simp only [Deployment.setCall, Deployment.setSession, Function.update_self] at hsession
        obtain ⟨before, hbefore, rfl⟩ := Option.map_eq_some_iff.mp hsession
        obtain ⟨⟨token', _, _, hissued', _, hend, _⟩, huser⟩ := hi.stored _ before hbefore
        obtain ⟨token, rfl, hissued⟩ :=
          (hi.calls call (List.mem_of_getElem? hcall)).rewriting text hphase read user hrow
        -- both name what the login handed out
        rw [hissued] at hissued'
        have htoken := congrArg Issued.accessToken (Option.some.inj hissued')
        have hexpires := congrArg Issued.expiresAt (Option.some.inj hissued')
        refine ⟨held_encrypt hp call.api token nonce ?_ rfl hend, huser⟩
        show s.issued call.sessionHash = some ⟨token, before.expiresAt⟩
        rw [hissued]
        exact congrArg (fun e => some (Issued.mk token e)) hexpires
      · refine hold ?_ rfl
        simp only [Deployment.setCall, Deployment.setSession, Function.update_of_ne hhash]
          at hsession
        exact hsession
  | delete i call hcall hphase =>
      by_cases hhash : hash = call.sessionHash
      · subst hhash
        simp [Deployment.setCall, Deployment.setSession] at hsession
      · refine hold ?_ rfl
        simp only [Deployment.setCall, Deployment.setSession, Function.update_of_ne hhash]
          at hsession
        exact hsession

theorem calls_step (hi : RotationInv fernet old new lifetime s)
    (hs : RotationStep fernet old new lifetime s l s') {call : AuthCall ω τ}
    (hcall : call ∈ s'.calls) : CallHeld fernet old new lifetime s' call := by
  have ha := advances hs
  have hold : call ∈ s.calls → CallHeld fernet old new lifetime s' call := fun h =>
    (hi.calls call h).advances ha
  cases hs with
  | tick | deploy | login => exact hold hcall
  | authenticate w sessionHash =>
      rcases List.mem_append.mp hcall with h | h
      · exact hold h
      · rw [List.mem_singleton.mp h]
        refine ⟨fun _ session user hrow => ?_, fun _ h => absurd h (by simp),
          fun h => absurd h (by simp), fun _ h => absurd h (by simp)⟩
        have hread : s.getAuthSession sessionHash = some (session, user) := hrow
        unfold Deployment.getAuthSession at hread
        split at hread
        · exact absurd hread (by simp)
        · rename_i session' hsession
          obtain ⟨user', _, heq⟩ := Option.map_eq_some_iff.mp hread
          rw [(Prod.mk.inj heq).1] at hsession
          exact ((hi.stored sessionHash session hsession).1).advances ha
  | check i call' hi' hphase =>
      rcases List.mem_or_eq_of_mem_set hcall with h | rfl
      · exact hold h
      · exact (callHeld_check hi (List.mem_of_getElem? hi') hphase).advances ha
  | write i nonce call' text session user hi' hphase hrow =>
      rcases List.mem_or_eq_of_mem_set hcall with h | rfl
      · exact hold h
      · exact (callHeld_write (hi.calls call' (List.mem_of_getElem? hi')) hphase hrow).advances ha
  | delete i call' hi' hphase =>
      rcases List.mem_or_eq_of_mem_set hcall with h | rfl
      · exact hold h
      · exact (callHeld_delete (hi.calls call' (List.mem_of_getElem? hi')) hphase).advances ha

theorem rotationInv_step (hi : RotationInv fernet old new lifetime s)
    (hs : RotationStep fernet old new lifetime s l s') :
    RotationInv fernet old new lifetime s' where
  paced := paced_step hi.paced hs
  stored := fun _ _ hsession => stored_step hi hs hsession
  calls := fun _ hcall => calls_step hi hs hcall

end Inv

/-! ## What the callers see -/

/-- A live session that its instance's primary key does not open is rewritten, not deleted. -/
theorem RotationInv.check_rewrites {s s' : Deployment ω τ}
    (hi : RotationInv fernet old new lifetime s) {i : Nat} {call : AuthCall ω τ}
    {session : AuthSession τ} {user : GitHubUser} (hcall : s.calls[i]? = some call)
    (hphase : call.phase = .fetched) (hrow : call.row = some (session, user))
    (hlive : s.now < session.expiresAt)
    (hother : fernet.decrypt ((s.stage call.api).keys old new).primary
      session.encryptedAccessToken = none)
    (hs : s.step fernet old new lifetime (.check i) = some s') :
    ∃ call' text, s'.calls[i]? = some call' ∧ call'.phase = .rewriting text := by
  have hheld := (hi.calls call (List.mem_of_getElem? hcall)).fetched hphase session user hrow
  obtain ⟨token, _, ⟨text, hsome, _⟩ | ⟨_, hphase'⟩⟩ :=
    checkSession_held hheld hi.paced call.api user hlive
  · rw [hother] at hsome
    exact absurd hsome (by simp)
  · cases rotationStep hs with
    | check _ call' hcall' _ =>
        rw [hcall] at hcall'
        obtain rfl := Option.some.inj hcall'
        have hlt := (List.getElem?_eq_some_iff.mp hcall).1
        refine ⟨_, token.toUTF8, List.getElem?_set_self hlt, ?_⟩
        dsimp only
        rw [hrow, hphase']

/-- The rewrite keeps the token and the expiry. -/
theorem RotationInv.write_keeps {s s' : Deployment ω τ}
    (hi : RotationInv fernet old new lifetime s) {i nonce : Nat} {call : AuthCall ω τ}
    {session : AuthSession τ} (hcall : s.calls[i]? = some call)
    (hs : s.step fernet old new lifetime (.write i nonce) = some s')
    (hsession : s.sessions call.sessionHash = some session) :
    ∃ token, s.issued call.sessionHash = some ⟨token, session.expiresAt⟩
      ∧ s'.sessions call.sessionHash = some { session with
        encryptedAccessToken :=
          fernet.encrypt ((s.stage call.api).keys old new).primary nonce token.toUTF8 } := by
  cases rotationStep hs with
  | write _ _ call' text read user hcall' hphase hrow =>
      rw [hcall] at hcall'
      obtain rfl := Option.some.inj hcall'
      obtain ⟨token, rfl, hissued⟩ :=
        (hi.calls call (List.mem_of_getElem? hcall)).rewriting text hphase read user hrow
      obtain ⟨⟨token', _, _, hissued', _⟩, _⟩ := hi.stored _ session hsession
      have hsame := hissued
      rw [hissued'] at hsame
      have htoken : token' = token := congrArg Issued.accessToken (Option.some.inj hsame)
      refine ⟨token, htoken ▸ hissued', ?_⟩
      simp only [Deployment.setCall, Deployment.setSession, Function.update_self, hsession,
        Option.map_some]

/-- A cipher that keeps the key beside the token. -/
def openFernet : Fernet Duo (Duo × ByteArray) where
  encrypt := fun key _ token => (key, token)
  decrypt := fun key text => if text.1 = key then some text.2 else none
  decrypt_own := fun _ _ _ => if_pos rfl
  decrypt_other := fun _ _ _ _ h => if_neg h

/-- A login under the old key, met by an instance that already has the new one. -/
def rewritesLogin : List (RotationLabel Duo) :=
  [.login .second "session-1" ⟨7, "octocat", none⟩ "gho_token" none 0,
    .deploy .first, .deploy .second, .deploy .first, .tick 5,
    .authenticate .first "session-1", .check 0, .write 0 1]

end PipeLens.Proof
