import Mathlib.Tactic
import Reverto.Lib.Histories
import Reverto.Lib.TtlCache
import Reverto.Web.BotSlugs

/-!
# USD rates (core/price_feed.py)

`get_usd_rate` with the cache of its process. What the two feeds reply is an input of the
call; instants are microseconds. A rate is a rational number, so that no reply is a NaN.
-/

namespace Reverto

/-- The live sources of a rate. -/
inductive Feed where
  | coingecko
  | bitget
  deriving DecidableEq, Repr

/-- The `source` stored with a rate. -/
def Feed.source : Feed → String
  | .coingecko => "coingecko"
  | .bitget => "bitget"

/-- What the request to CoinGecko comes to: an `HTTPError` or a `ValueError`, JSON without
an object where one is read, or what stands under `usd`, if it is a number. -/
inductive GeckoReply where
  | failed
  | malformed
  | usd (rate : Option ℚ)
  deriving DecidableEq, Repr

/-- What `fetch_ticker` comes to: an exception, or `last`, if it is a number. -/
inductive TickerReply where
  | failed
  | last (price : Option ℚ)
  deriving DecidableEq, Repr

/-- A number greater than zero. -/
def usableRate (rate : Option ℚ) : Option ℚ := rate.filter fun r => 0 < r

/-- The rate of a reply of CoinGecko. -/
def GeckoReply.given : GeckoReply → Option ℚ
  | .usd rate => usableRate rate
  | _ => none

/-- The rate of a ticker. -/
def TickerReply.given : TickerReply → Option ℚ
  | .last price => usableRate price
  | .failed => none

structure FeedReplies where
  coingecko : GeckoReply
  bitget : TickerReply
  deriving DecidableEq, Repr

/-- A `PriceFeedError`, or the `AttributeError` of a malformed reply. -/
inductive RateError where
  | empty
  | bothFailed (currency : String)
  | attributeError
  deriving DecidableEq, Repr

/-- A feed was asked and gave a usable rate or none; a rate was stored; a call returned. -/
inductive PriceEvent where
  | asked (feed : Feed) (currency : String) (given : Option ℚ) (now : ℤ)
  | fetched (entry : CacheEntry String (ℚ × String))
  | answered (currency : String) (rate : ℚ) (source : String) (now : ℤ)
  deriving DecidableEq, Repr

/-- `_CACHE` -/
abbrev RateCache := TtlCache.Cache String (ℚ × String)

namespace PriceFeed

open Program TtlCache

/-- `_CACHE_TTL` -/
def cacheTtl : ℤ := 5 * 60 * 1000000

/-- `_COINGECKO_IDS` -/
def coingeckoIds : List (String × String) :=
  [("BTC", "bitcoin"), ("USDT", "tether"), ("USDC", "usd-coin")]

/-- `str.upper` -/
def upper (text : String) : String := String.ofList (text.toList.map Char.toUpper)

/-- The source that a cache hit reports. -/
def cachedSource (source : String) : String :=
  let suffix := if source.endsWith "_cache" then "" else "_cache"
  source ++ suffix

/-- `_cache_get` -/
def cacheGet (cache : RateCache) (currency : String) (now : ℤ) : Option (ℚ × String) :=
  (serve cacheTtl cache (upper currency) now).map fun entry => (entry.1, cachedSource entry.2)

/-- `_cache_set` -/
def cacheSet (currency : String) (rate : ℚ) (source : String) (now : ℤ) :
    Program RateError PriceEvent RateCache Unit := do
  emit (.fetched ⟨upper currency, (rate, source), now⟩)
  modify fun cache => cache.set ⟨upper currency, (rate, source), now⟩

/-- `_coingecko_lookup` -/
def coingeckoLookup (currency : String) (now : ℤ) (reply : GeckoReply) :
    Program RateError PriceEvent RateCache (Option ℚ) :=
  match coingeckoIds.lookup currency with
  | none => pure none
  | some _ => do
    emit (.asked .coingecko currency reply.given now)
    -- `payload.get(…, {}).get("usd")` stands outside the `try`
    if reply = .malformed then raise .attributeError
    else pure reply.given

/-- `_bitget_fallback_rate` -/
def bitgetFallbackRate (currency : String) (now : ℤ) (reply : TickerReply) :
    Program RateError PriceEvent RateCache (Option ℚ) :=
  if currency = "USDT" then pure (some 1)
  else do
    emit (.asked .bitget currency reply.given now)
    pure reply.given

/-- `(currency or "").strip().upper()` -/
@[irreducible] def normalized (currency : String) : String :=
  upper (String.ofList (strip isSpace currency.toList))

/-- `return rate, source` -/
def answer (currency : String) (rate : ℚ) (source : String) (now : ℤ) :
    Program RateError PriceEvent RateCache (ℚ × String) := do
  emit (.answered currency rate source now)
  pure (rate, source)

/-- A live rate is stored and returned. -/
def keepRate (currency : String) (rate : ℚ) (feed : Feed) (now : ℤ) :
    Program RateError PriceEvent RateCache (ℚ × String) := do
  cacheSet currency rate feed.source now
  answer currency rate feed.source now

/-- `get_usd_rate` from the Bitget fallback on. -/
def fallBack (currency : String) (now : ℤ) (reply : TickerReply) :
    Program RateError PriceEvent RateCache (ℚ × String) := do
  match ← bitgetFallbackRate currency now reply with
  | some rate => keepRate currency rate .bitget now
  | none => raise (.bothFailed currency)

/-- `get_usd_rate` behind the cache. -/
def fetchRate (currency : String) (now : ℤ) (replies : FeedReplies) :
    Program RateError PriceEvent RateCache (ℚ × String) := do
  match ← coingeckoLookup currency now replies.coingecko with
  | some rate => keepRate currency rate .coingecko now
  | none => fallBack currency now replies.bitget

/-- The cache, then the feeds. -/
def pricedRate (currency : String) (now : ℤ) (replies : FeedReplies) :
    Program RateError PriceEvent RateCache (ℚ × String) := do
  let cache ← get
  match cacheGet cache currency now with
  | some cached => answer currency cached.1 cached.2 now
  | none => fetchRate currency now replies

/-- `get_usd_rate` -/
def getUsdRate (currency : String) (now : ℤ) (replies : FeedReplies) :
    Program RateError PriceEvent RateCache (ℚ × String) :=
  let currencyU := normalized currency
  if currencyU = "" then raise .empty
  else if currencyU = "USD" then answer currencyU 1 "identity" now
  else pricedRate currencyU now replies

/-! ### Histories of a process -/

/-- The rates stored so far. -/
def fetches (l : List PriceEvent) : List (CacheEntry String (ℚ × String)) :=
  l.filterMap fun event =>
    match event with
    | .fetched entry => some entry
    | _ => none

/-- The clock reading of an event. -/
def readAt : PriceEvent → ℤ
  | .asked _ _ _ now => now
  | .fetched entry => entry.fetchedAt
  | .answered _ _ _ now => now

/-- The clock never goes back. -/
def Timely (l : List PriceEvent) : Prop := (l.map readAt).Pairwise (· ≤ ·)

/-- Every rate stored for the currency has expired. -/
def Expired (before : List PriceEvent) (currency : String) (now : ℤ) : Prop :=
  ∀ e ∈ fetches before, e.key = currency → cacheTtl ≤ now - e.fetchedAt

/-- A feed is asked for a currency whose rates have all expired, Bitget right after CoinGecko
gave none. A rate is stored right after a feed gave it, or it is the 1 of USDT. A call
returns the 1 of USD, the rate just stored, or the last one stored, which is not expired. -/
def RateLaw (before : List PriceEvent) : PriceEvent → Prop
  | .asked feed currency _ now =>
    Expired before currency now ∧ (feed = .bitget → coingeckoIds.lookup currency ≠ none →
      before.getLast? = some (.asked .coingecko currency none now))
  | .fetched entry =>
    Expired before entry.key entry.fetchedAt ∧ 0 < entry.value.1 ∧
      ((∃ feed : Feed, entry.value.2 = feed.source ∧
        before.getLast? = some (.asked feed entry.key (some entry.value.1) entry.fetchedAt)) ∨
      (entry.key = "USDT" ∧ entry.value = (1, Feed.source .bitget) ∧
        before.getLast? = some (.asked .coingecko "USDT" none entry.fetchedAt)))
  | .answered currency rate source now =>
    (currency = "USD" ∧ rate = 1 ∧ source = "identity") ∨
      before.getLast? = some (.fetched ⟨currency, (rate, source), now⟩) ∨
      ∃ entry, lastOf (fetches before) currency = some entry ∧ entry.value.1 = rate ∧
        source = cachedSource entry.value.2 ∧ now - entry.fetchedAt < cacheTtl

/-- The cache holds the last rates stored, and every event is lawful. -/
structure Kept (before : List PriceEvent) (cache : RateCache) : Prop where
  written : Written (fetches before) cache
  lawful : Timely before → Lawful RateLaw before

@[simp] theorem fetches_append (l l' : List PriceEvent) :
    fetches (l ++ l') = fetches l ++ fetches l' := List.filterMap_append

theorem timely_prior (l l' : List PriceEvent) (h : Timely (l ++ l')) : Timely l := by
  rw [Timely, List.map_append] at h
  exact (List.pairwise_append.mp h).1

theorem fetches_readAt (l : List PriceEvent) :
    ((fetches l).map CacheEntry.fetchedAt).Sublist (l.map readAt) := by
  induction l with
  | nil => exact List.Sublist.refl _
  | cons event l ih =>
    cases event with
    | asked feed currency given now => exact ih.cons _
    | fetched entry => exact ih.cons_cons _
    | answered currency rate source now => exact ih.cons _

theorem fetches_timely (l : List PriceEvent) (h : Timely l) :
    (fetches l).Pairwise fun a b => a.fetchedAt ≤ b.fetchedAt :=
  List.pairwise_map.mp (h.sublist (fetches_readAt l))

/-- One more lawful event that stores nothing. -/
theorem kept_snoc (before : List PriceEvent) (cache : RateCache) (event : PriceEvent)
    (h : Kept before cache) (hevent : fetches [event] = [])
    (hlaw : Timely before → RateLaw before event) : Kept (before ++ [event]) cache where
  written := by
    rw [fetches_append, hevent, List.append_nil]
    exact h.written
  lawful htime := by
    have hbefore := timely_prior before [event] htime
    exact lawful_snoc RateLaw before event (h.lawful hbefore) (hlaw hbefore)

/-- A rate is stored. -/
theorem kept_stored (before : List PriceEvent) (cache : RateCache)
    (entry : CacheEntry String (ℚ × String)) (h : Kept before cache)
    (hlaw : Timely before → RateLaw before (.fetched entry)) :
    Kept (before ++ [.fetched entry]) (cache.set entry) where
  written := by
    rw [fetches_append]
    exact written_set (fetches before) cache entry h.written
  lawful htime := by
    have hbefore := timely_prior before [.fetched entry] htime
    exact lawful_snoc RateLaw before _ (h.lawful hbefore) (hlaw hbefore)

theorem expired_of_miss (before : List PriceEvent) (cache : RateCache) (currency : String) (now : ℤ)
    (h : Kept before cache) (hmiss : serve cacheTtl cache currency now = none)
    (htime : Timely before) : Expired before currency now :=
  serve_none cacheTtl (fetches before) cache currency now h.written (fetches_timely before htime)
    hmiss

/-- Raising a letter twice raises it once. -/
theorem toUpper_toUpper (c : Char) : c.toUpper.toUpper = c.toUpper := by
  by_cases h : 'a'.val ≤ c.val ∧ c.val ≤ 'z'.val
  · have hval : c.toUpper.val = c.val + ('A'.val - 'a'.val) := by
      rw [Char.toUpper.eq_def c, dif_pos h]
    have hnot : ¬ ('a'.val ≤ c.toUpper.val ∧ c.toUpper.val ≤ 'z'.val) := by
      rw [hval]
      have hle := UInt32.le_iff_toNat_le.mp h.1
      have hge := UInt32.le_iff_toNat_le.mp h.2
      have ha : 'a'.val.toNat = 97 := rfl
      have hz : 'z'.val.toNat = 122 := rfl
      have hshift : ('A'.val - 'a'.val).toNat = 4294967264 := rfl
      rw [UInt32.le_iff_toNat_le, UInt32.toNat_add, hshift]
      omega
    rw [Char.toUpper.eq_def c.toUpper, dif_neg hnot]
  · have hsame : c.toUpper = c := dif_neg h
    rw [hsame, hsame]

theorem upper_normalized (currency : String) : upper (normalized currency) = normalized currency := by
  have hchar : Char.toUpper ∘ Char.toUpper = Char.toUpper := funext toUpper_toUpper
  rw [normalized, upper, upper, String.toList_ofList, List.map_map, hchar]

theorem usableRate_pos (given : Option ℚ) (rate : ℚ) (h : usableRate given = some rate) : 0 < rate := by
  rw [usableRate, Option.filter_eq_some_iff] at h
  exact of_decide_eq_true h.2

theorem gecko_given_pos (reply : GeckoReply) (rate : ℚ) (h : reply.given = some rate) : 0 < rate := by
  cases reply with
  | failed => cases h
  | malformed => cases h
  | usd given => exact usableRate_pos given rate h

theorem ticker_given_pos (reply : TickerReply) (rate : ℚ) (h : reply.given = some rate) :
    0 < rate := by
  cases reply with
  | failed => cases h
  | last price => exact usableRate_pos price rate h

/-- An ask stores nothing. -/
theorem expired_asked (before : List PriceEvent) (feed : Feed) (currency : String)
    (given : Option ℚ) (now : ℤ) (h : Timely before → Expired before currency now)
    (htime : Timely (before ++ [.asked feed currency given now])) :
    Expired (before ++ [.asked feed currency given now]) currency now := by
  have hsame : fetches (before ++ [.asked feed currency given now]) = fetches before := by
    rw [fetches_append]
    exact List.append_nil _
  rw [Expired, hsame]
  exact h (timely_prior _ _ htime)

section Fetching

variable (before : List PriceEvent) (cache : RateCache) (currency : String) (now : ℤ)
  (hupper : upper currency = currency) (hkept : Kept before cache)
  (hmiss : Timely before → Expired before currency now)

include hupper hkept hmiss

theorem kept_keepRate (rate : ℚ) (feed : Feed) (hpos : 0 < rate)
    (hgiven : before.getLast? = some (.asked feed currency (some rate) now) ∨
      (currency = "USDT" ∧ rate = 1 ∧ feed = .bitget ∧
        before.getLast? = some (.asked .coingecko "USDT" none now))) :
    Kept (before ++ (keepRate currency rate feed now cache).log)
      (keepRate currency rate feed now cache).state := by
  have hlaw : Timely before → RateLaw before (.fetched ⟨currency, (rate, feed.source), now⟩) := by
    intro htime
    refine ⟨hmiss htime, hpos, ?_⟩
    rcases hgiven with hlast | ⟨husdt, rfl, rfl, hlast⟩
    · exact .inl ⟨feed, rfl, hlast⟩
    · exact .inr ⟨husdt, rfl, hlast⟩
  have hstored := kept_stored before cache _ hkept hlaw
  have hlog : (keepRate currency rate feed now cache).log =
      [.fetched ⟨currency, (rate, feed.source), now⟩, .answered currency rate feed.source now] := by
    change [PriceEvent.fetched ⟨upper currency, (rate, feed.source), now⟩,
      .answered currency rate feed.source now] = _
    rw [hupper]
  have hstate : (keepRate currency rate feed now cache).state =
      cache.set ⟨currency, (rate, feed.source), now⟩ := by
    change cache.set ⟨upper currency, (rate, feed.source), now⟩ = _
    rw [hupper]
  rw [hlog, hstate, List.append_cons]
  refine kept_snoc _ _ _ hstored rfl fun _ => .inr (.inl ?_)
  exact List.getLast?_concat

theorem kept_fallBack (reply : TickerReply)
    (hasked : coingeckoIds.lookup currency ≠ none →
      before.getLast? = some (.asked .coingecko currency none now)) :
    Kept (before ++ (fallBack currency now reply cache).log)
      (fallBack currency now reply cache).state := by
  rw [fallBack]
  by_cases husdt : currency = "USDT"
  · have hrate : bitgetFallbackRate currency now reply = pure (some 1) := if_pos husdt
    rw [hrate, pure_bind]
    refine kept_keepRate before cache currency now hupper hkept hmiss 1 .bitget one_pos (.inr ?_)
    refine ⟨husdt, rfl, rfl, ?_⟩
    rw [← husdt]
    exact hasked (by rw [husdt]; decide)
  · have hask := kept_snoc before cache (.asked .bitget currency reply.given now) hkept rfl
      fun htime => ⟨hmiss htime, fun _ => hasked⟩
    have hrate : bitgetFallbackRate currency now reply =
        emit (.asked .bitget currency reply.given now) >>= fun _ => pure reply.given :=
      if_neg husdt
    rw [hrate, bind_assoc, emit_bind_run, List.append_cons]
    cases hgiven : reply.given with
    | none =>
      rw [hgiven] at hask
      exact (congrArg (Kept · cache) (List.append_nil _)).mpr hask
    | some rate =>
      rw [hgiven] at hask
      have hexpired := expired_asked before .bitget currency (some rate) now hmiss
      exact kept_keepRate _ cache currency now hupper hask hexpired rate .bitget
        (ticker_given_pos reply rate hgiven) (.inl List.getLast?_concat)

theorem kept_fetchRate (replies : FeedReplies) :
    Kept (before ++ (fetchRate currency now replies cache).log)
      (fetchRate currency now replies cache).state := by
  rw [fetchRate]
  cases hid : coingeckoIds.lookup currency with
  | none =>
    have hnone : coingeckoLookup currency now replies.coingecko = pure none := by
      rw [coingeckoLookup, hid]
    rw [hnone, pure_bind]
    exact kept_fallBack before cache currency now hupper hkept hmiss replies.bitget
      fun hknown => absurd hid hknown
  | some coingeckoId =>
    have hask := kept_snoc before cache
      (.asked .coingecko currency replies.coingecko.given now) hkept rfl
      fun htime => ⟨hmiss htime, fun hfeed => by cases hfeed⟩
    have hasked : coingeckoLookup currency now replies.coingecko =
        emit (.asked .coingecko currency replies.coingecko.given now) >>= fun _ =>
          if replies.coingecko = .malformed then raise .attributeError
          else pure replies.coingecko.given := by
      rw [coingeckoLookup, hid]
    rw [hasked, bind_assoc, emit_bind_run, List.append_cons]
    by_cases hbad : replies.coingecko = .malformed
    · rw [if_pos hbad, bind_error _ _ cache .attributeError rfl]
      exact (congrArg (Kept · cache) (List.append_nil _)).mpr hask
    · rw [if_neg hbad, pure_bind]
      cases hgiven : replies.coingecko.given with
      | none =>
        rw [hgiven] at hask
        have hexpired := expired_asked before .coingecko currency none now hmiss
        exact kept_fallBack _ cache currency now hupper hask hexpired replies.bitget
          fun _ => List.getLast?_concat
      | some rate =>
        rw [hgiven] at hask
        have hexpired := expired_asked before .coingecko currency (some rate) now hmiss
        exact kept_keepRate _ cache currency now hupper hask hexpired rate .coingecko
          (gecko_given_pos replies.coingecko rate hgiven) (.inl List.getLast?_concat)

end Fetching

theorem kept_pricedRate (before : List PriceEvent) (cache : RateCache) (currency : String) (now : ℤ)
    (replies : FeedReplies) (hupper : upper currency = currency) (hkept : Kept before cache) :
    Kept (before ++ (pricedRate currency now replies cache).log)
      (pricedRate currency now replies cache).state := by
  rw [pricedRate, get_bind_run, cacheGet, hupper]
  cases hserve : serve cacheTtl cache currency now with
  | none =>
    change Kept (before ++ (fetchRate currency now replies cache).log)
      (fetchRate currency now replies cache).state
    refine kept_fetchRate before cache currency now hupper hkept (fun htime => ?_) replies
    exact expired_of_miss before cache currency now hkept hserve htime
  | some cached =>
    obtain ⟨entry, hlast, hvalue, hfresh⟩ :=
      serve_some cacheTtl (fetches before) cache currency now cached hkept.written hserve
    change Kept (before ++ [.answered currency cached.1 (cachedSource cached.2) now]) cache
    refine kept_snoc before cache _ hkept rfl fun _ => .inr (.inr ⟨entry, hlast, ?_⟩)
    rw [hvalue]
    exact ⟨rfl, rfl, hfresh⟩

/-- Every call leaves a lawful log behind a lawful one. -/
theorem keepsHistory_getUsdRate (currency : String) (now : ℤ) (replies : FeedReplies) :
    KeepsHistory Kept (getUsdRate currency now replies) := by
  intro cache before hkept
  by_cases hempty : normalized currency = ""
  · have hrun : getUsdRate currency now replies = raise .empty := by
      simp only [getUsdRate, if_pos hempty]
    rw [hrun]
    exact (congrArg (Kept · cache) (List.append_nil _)).mpr hkept
  by_cases husd : normalized currency = "USD"
  · have hrun : getUsdRate currency now replies = answer (normalized currency) 1 "identity" now := by
      simp only [getUsdRate, if_neg hempty, if_pos husd]
    rw [hrun, husd]
    exact kept_snoc before cache _ hkept rfl fun _ => .inl ⟨rfl, rfl, rfl⟩
  have hrun : getUsdRate currency now replies = pricedRate (normalized currency) now replies := by
    simp only [getUsdRate, if_neg hempty, if_neg husd]
  rw [hrun]
  exact kept_pricedRate before cache _ now replies (upper_normalized currency) hkept

/-- The rates stored for one currency are five minutes apart. -/
theorem spaced_of_lawful (l : List PriceEvent) (h : Lawful RateLaw l) :
    Spaced cacheTtl (fetches l) := by
  induction l using List.reverseRecOn with
  | nil => exact spaced_nil cacheTtl
  | append_singleton l event ih =>
    have hprior := ih (lawful_prior RateLaw l [event] h)
    rw [fetches_append]
    cases event with
    | asked feed currency given now => exact (List.append_nil (fetches l)).symm ▸ hprior
    | fetched entry =>
      have hlaw : RateLaw l (.fetched entry) := h l _ [] rfl
      exact spaced_snoc cacheTtl (fetches l) entry hprior hlaw.1
    | answered currency rate source now => exact (List.append_nil (fetches l)).symm ▸ hprior

/-! ### What a call comes to -/

section Calls

variable (currency : String) (now : ℤ)

theorem endsWith_answer (rate : ℚ) (source : String) :
    EndsWith (fun r => .answered currency r.1 r.2 now) (answer currency rate source now) := by
  intro cache r h
  cases h
  rfl

theorem endsWith_fallBack (reply : TickerReply) :
    EndsWith (fun r => .answered currency r.1 r.2 now) (fallBack currency now reply) := by
  refine endsWith_bind _ _ _ fun given => ?_
  cases given with
  | none => exact endsWith_raise _ _
  | some rate => exact endsWith_bind _ _ _ fun _ => endsWith_answer currency now rate _

theorem endsWith_fetchRate (replies : FeedReplies) :
    EndsWith (fun r => .answered currency r.1 r.2 now) (fetchRate currency now replies) := by
  refine endsWith_bind _ _ _ fun given => ?_
  cases given with
  | none => exact endsWith_fallBack currency now replies.bitget
  | some rate => exact endsWith_bind _ _ _ fun _ => endsWith_answer currency now rate _

theorem endsWith_pricedRate (replies : FeedReplies) :
    EndsWith (fun r => .answered currency r.1 r.2 now) (pricedRate currency now replies) := by
  refine endsWith_bind _ _ _ fun cache => ?_
  cases cacheGet cache currency now with
  | none => exact endsWith_fetchRate currency now replies
  | some cached => exact endsWith_answer currency now cached.1 cached.2

/-- A call that returns ends with its answer. -/
theorem endsWith_getUsdRate (replies : FeedReplies) :
    EndsWith (fun r => .answered (normalized currency) r.1 r.2 now)
      (getUsdRate currency now replies) := by
  unfold getUsdRate
  dsimp only
  split
  · exact endsWith_raise _ _
  split
  · exact endsWith_answer _ now 1 "identity"
  · exact endsWith_pricedRate _ now replies

/-- A feed gives a rate of the currency. -/
def Quoted (currency : String) (replies : FeedReplies) : Prop :=
  (coingeckoIds.lookup currency ≠ none ∧ replies.coingecko.given ≠ none) ∨ currency = "USDT" ∨
    replies.bitget.given ≠ none

instance (currency : String) (replies : FeedReplies) : Decidable (Quoted currency replies) :=
  inferInstanceAs (Decidable (_ ∨ _ ∨ _))

/-- A call returns, or it raises an error of the kind its reply allows. -/
def Ends (replies : FeedReplies) (quoted : Prop) (result : Except RateError (ℚ × String)) : Prop :=
  match result with
  | .ok _ => True
  | .error e => if e = .attributeError then replies.coingecko = .malformed else ¬ quoted

theorem ends_fallBack (replies : FeedReplies) (cache : RateCache)
    (hgecko : coingeckoIds.lookup currency ≠ none → replies.coingecko.given = none) :
    Ends replies (Quoted currency replies) (fallBack currency now replies.bitget cache).result := by
  rw [fallBack]
  by_cases husdt : currency = "USDT"
  · have hrate : bitgetFallbackRate currency now replies.bitget = pure (some 1) := if_pos husdt
    rw [hrate, pure_bind]
    trivial
  · have hrate : bitgetFallbackRate currency now replies.bitget =
        emit (.asked .bitget currency replies.bitget.given now) >>= fun _ =>
          pure replies.bitget.given := if_neg husdt
    rw [hrate, bind_assoc, emit_bind_run]
    cases hgiven : replies.bitget.given with
    | some rate => trivial
    | none =>
      intro hquoted
      rcases hquoted with ⟨hknown, hrate⟩ | husdt' | hbitget
      · exact hrate (hgecko hknown)
      · exact husdt husdt'
      · exact hbitget hgiven

theorem ends_fetchRate (replies : FeedReplies) (cache : RateCache) :
    Ends replies (Quoted currency replies) (fetchRate currency now replies cache).result := by
  rw [fetchRate]
  cases hid : coingeckoIds.lookup currency with
  | none =>
    have hnone : coingeckoLookup currency now replies.coingecko = pure none := by
      rw [coingeckoLookup, hid]
    rw [hnone, pure_bind]
    exact ends_fallBack currency now replies cache fun hknown => absurd hid hknown
  | some coingeckoId =>
    have hasked : coingeckoLookup currency now replies.coingecko =
        emit (.asked .coingecko currency replies.coingecko.given now) >>= fun _ =>
          if replies.coingecko = .malformed then raise .attributeError
          else pure replies.coingecko.given := by
      rw [coingeckoLookup, hid]
    rw [hasked, bind_assoc, emit_bind_run]
    by_cases hbad : replies.coingecko = .malformed
    · rw [if_pos hbad]
      exact hbad
    · rw [if_neg hbad, pure_bind]
      cases hgiven : replies.coingecko.given with
      | none => exact ends_fallBack currency now replies cache fun _ => hgiven
      | some rate => trivial

theorem ends_pricedRate (replies : FeedReplies) (cache : RateCache) :
    Ends replies (Quoted currency replies) (pricedRate currency now replies cache).result := by
  rw [pricedRate, get_bind_run]
  cases hserve : cacheGet cache currency now with
  | none => exact ends_fetchRate currency now replies cache
  | some cached => trivial

/-- For USD and for a quoted currency a call returns, if the reply of CoinGecko is well formed;
otherwise it may raise a `PriceFeedError`. -/
theorem ends_getUsdRate (replies : FeedReplies) (cache : RateCache)
    (hcurrency : normalized currency = currency) :
    Ends replies (currency ≠ "" ∧ (currency = "USD" ∨ Quoted currency replies))
      (getUsdRate currency now replies cache).result := by
  unfold getUsdRate
  rw [hcurrency]
  by_cases hempty : currency = ""
  · rw [if_pos hempty]
    exact fun h => h.1 hempty
  by_cases husd : currency = "USD"
  · rw [if_neg hempty, if_pos husd]
    trivial
  rw [if_neg hempty, if_neg husd]
  have hends := ends_pricedRate currency now replies cache
  cases hresult : (pricedRate currency now replies cache).result with
  | ok rate => trivial
  | error e =>
    rw [hresult] at hends
    revert hends
    rw [Ends, Ends]
    split
    · exact id
    · exact fun hquoted h => hquoted (h.2.resolve_left husd)

end Calls

/-- A call of a process. -/
structure RateCall where
  currency : String
  now : ℤ
  replies : FeedReplies
  deriving DecidableEq, Repr

/-- One call after the other. -/
def calls (rateCalls : List RateCall) (cache : RateCache) : List PriceEvent × RateCache :=
  runAll (fun c : RateCall => getUsdRate c.currency c.now c.replies >>= fun _ => pure ()) rateCalls
    cache

theorem kept_calls (rateCalls : List RateCall) (cache : RateCache) (before : List PriceEvent)
    (h : Kept before cache) :
    Kept (before ++ (calls rateCalls cache).1) (calls rateCalls cache).2 := by
  refine traced_invariant _ (fun _ _ _ => True) Kept (fun l s c hl _ => ?_) rateCalls before cache h ?_
  · have hcall := respects_bind (traceRel_history Kept) _ _
      (keepsHistory_getUsdRate c.currency c.now c.replies) fun _ =>
        respects_pure (traceRel_history Kept) ()
    exact hcall s l hl
  · exact eachTraced_of_eachStep _ (fun _ _ => True) rateCalls before cache
      ((eachStep_true _ rateCalls cache).mpr trivial)

theorem kept_empty : Kept [] KeyedDict.empty where
  written := written_empty
  lawful _ := lawful_nil RateLaw

/-- While the clock of the process does not go back, every rate that any calls store and
return is a positive one that the named feed gave, at most five minutes before, and no feed
is asked again for a currency within five minutes of a rate. -/
theorem rates_lawful (rateCalls : List RateCall)
    (htime : Timely (calls rateCalls KeyedDict.empty).1) :
    Lawful RateLaw (calls rateCalls KeyedDict.empty).1 ∧
      Spaced cacheTtl (fetches (calls rateCalls KeyedDict.empty).1) := by
  have hkept := kept_calls rateCalls KeyedDict.empty [] kept_empty
  rw [List.nil_append] at hkept
  exact ⟨hkept.lawful htime, spaced_of_lawful _ (hkept.lawful htime)⟩

/-- CoinGecko is down at first; the rate of Bitget is served for five minutes. -/
def outageCalls : List RateCall :=
  [⟨"btc", 0, ⟨.failed, .last (some 60000)⟩⟩, ⟨"BTC", 60000000, ⟨.usd (some 61000), .failed⟩⟩,
    ⟨"BTC ", 300000000, ⟨.usd (some 62000), .failed⟩⟩]

theorem outageCalls_lawful : Lawful RateLaw (calls outageCalls KeyedDict.empty).1 ∧
    Spaced cacheTtl (fetches (calls outageCalls KeyedDict.empty).1) :=
  rates_lawful outageCalls (by rw [Timely]; decide +kernel)

example : (calls outageCalls KeyedDict.empty).1 =
    [.asked .coingecko "BTC" none 0, .asked .bitget "BTC" (some 60000) 0,
      .fetched ⟨"BTC", (60000, "bitget"), 0⟩, .answered "BTC" 60000 "bitget" 0,
      .answered "BTC" 60000 "bitget_cache" 60000000, .asked .coingecko "BTC" (some 62000) 300000000,
      .fetched ⟨"BTC", (62000, "coingecko"), 300000000⟩,
      .answered "BTC" 62000 "coingecko" 300000000] := by decide +kernel

end PriceFeed

end Reverto
