import Szn.Spec.Queue

set_option autoImplicit false

namespace Szn

open Stateful Simulation

structure Agree (P : Platform) (text : List Byte) (queue : Queue) (range : RangeSource)
    (stream : StreamSource) : Prop where
  buffered : stream.size ≤ stream.buffer.length
  partition : queue.dropped ++ stream.buffer ++ stream.input.undelivered = text
  streamUnread : stream.buffer ++ stream.input.undelivered = queue.unread
  rangeUnread : range.range.drop range.position = queue.unread
  visible : stream.size = queue.visible
  sizes : stream.size ≤ range.size
  loaded : ∀ n, ∃ after, (streamSource P).load n stream = .ok () after ∧
    (streamSource P).size after = .ok (min n queue.unread.length) after ∧
      ∀ index, index < min n queue.unread.length → ∃ byte,
        queue.unread[index]? = some byte ∧ (streamSource P).get index after = .ok byte after

theorem shows_agree (P : Platform) (text : List Byte) (queue : Queue) (range : RangeSource)
    (stream : StreamSource) (consistent : queue.Consistent text)
    (onRange : (rangeView text).Shows range queue)
    (onStream : (streamView P).Shows stream queue) : Agree P text queue range stream := by
  obtain ⟨readyStream, unreadStream, inside, visibleStream⟩ := onStream
  obtain ⟨readyRange, unreadRange, -, visibleRange⟩ := onRange
  have shown : stream.size = queue.visible := visibleStream
  have whole : range.size = queue.unread.length := visibleRange
  have same : stream.buffer ++ stream.input.undelivered = queue.unread := unreadStream
  have loaded (n : Nat) : ∃ after, (streamSource P).load n stream = .ok () after ∧
      (streamSource P).size after = .ok (min n queue.unread.length) after ∧
        ∀ index, index < min n queue.unread.length → ∃ byte,
          queue.unread[index]? = some byte ∧
            (streamSource P).get index after = .ok byte after := by
    obtain ⟨after, done, ready, unread, visible⟩ :=
      (stream_presents P).load stream n readyStream
    have window : (streamView P).visible after = min n queue.unread.length := by
      rw [visible, unreadStream]
      rfl
    refine ⟨after, done, ?_, ?_⟩
    · rw [(stream_presents P).size after ready, window]
    · intro index covered
      have found := (stream_presents P).get after index ready (by rwa [window])
      rwa [unread, unreadStream] at found
  exact
    { buffered := readyStream.1
      partition := by rw [List.append_assoc, same, consistent.1]
      streamUnread := same
      rangeUnread := unreadRange
      visible := shown
      sizes := by rw [shown, whole]; exact inside
      loaded := loaded }

theorem sources_agree_with_queue (P : Platform) (text : List Byte) (gcount : Nat)
    -- The buffer can hold the text: allocation succeeds.
    (allocates : text.length ≤ P.bufferMax) (operations : List Operation)
    (follows : Follows Queue.perform (Queue.Allows text) operations (Queue.start text)) :
    let queue := run Queue.perform operations (Queue.start text)
    let range := run (rangeSource P).perform operations (makeRangeSource text)
    let stream := run (streamSource P).perform operations
      (makeStreamSource ⟨text, gcount, false⟩)
    range.1 = queue.1 ∧ stream.1 = queue.1 ∧ Agree P text queue.2 range.2 stream.2 := by
  intro queue range stream
  have startRange : (rangeView text).Shows (makeRangeSource text) (Queue.start text) := by
    refine ⟨⟨rfl, Nat.zero_le _⟩, rfl, Nat.zero_le _, ?_⟩
    simp [rangeView, RangeSource.size, makeRangeSource, Queue.start]
  have startStream : (streamView P).Shows (makeStreamSource ⟨text, gcount, false⟩)
      (Queue.start text) := by
    refine ⟨⟨Nat.le_refl _, rfl, ?_⟩, rfl, Nat.zero_le _, rfl⟩
    simpa [makeStreamSource] using allocates
  have onRange := ((range_presents P text).refines text id).run operations _ _ startRange follows
  have onStream := ((stream_presents P).refines text fun _ => trivial).run operations _ _
    startStream follows
  have consistent := run_invariant (Queue.Consistent text)
    (fun operation queue holds _ => Queue.perform_consistent text operation queue holds)
    operations _ (Queue.start_consistent text) follows
  exact ⟨onRange.1, onStream.1, shows_agree P text _ _ _ consistent onRange.2 onStream.2⟩

theorem sources_agree_after_short_read :
    let operations := [Operation.load 4, .get 1, .load 2, .drop 1, .read [0, 0, 0] 2,
      .read [7, 7, 7] 3, .read [0, 0] 2]
    let text := [10, 20, 30, 40, 50]
    let queue := run Queue.perform operations (Queue.start text)
    let range := run (rangeSource amd64).perform operations (makeRangeSource text)
    let stream := run (streamSource amd64).perform operations
      (makeStreamSource ⟨text, 0, false⟩)
    range.1 = queue.1 ∧ stream.1 = queue.1 ∧
      Agree amd64 text queue.2 range.2 stream.2 :=
  sources_agree_with_queue amd64 [10, 20, 30, 40, 50] 0 (by decide) _
    (by simp [Follows, Queue.Allows, Queue.perform, Queue.start, Queue.load])

end Szn
