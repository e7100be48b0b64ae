import SlabHeap.Fault

/-!
# Events

What the heap reports while it works.  An event carries the quantities it is
about, and `Event.text` is the only place that words them.  `Event.line` puts
the level in front, as a journal shows it.
-/

namespace SlabHeap

/-- How serious an event is. -/
inductive Level where
  | error
  | warn
  | info
  | debug
  deriving DecidableEq, Repr

/-- The name of a level. -/
def Level.name : Level → String
  | .error => "ERROR"
  | .warn => "WARN"
  | .info => "INFO"
  | .debug => "DEBUG"

/-- Something worth reporting. -/
inductive Event where
  /-- A region offered to the page pool has no whole page in it. -/
  | regionTooSmall (start stop : UInt64)
  /-- Whole pages were added to the page pool. -/
  | pagesAdded (first stop count : UInt64)
  /-- No page could be had for a new slab. -/
  | noPageForSlab (objectSize : UInt64) (error : AllocError)
  /-- A cache was asked for before the bootstrap cache was registered. -/
  | bootstrapMissing
  /-- A cache was created. -/
  | cacheCreated (objectSize address : UInt64) (bucket : Nat)
  /-- A cache with live objects was dropped. -/
  | cacheDropped (objectSize live pages : UInt64)
  /-- The bootstrap cache still holds live objects after a reset. -/
  | bootstrapKeeps (live pages : UInt64)
  /-- An allocator was initialized a second time. -/
  | alreadyInitialized
  /-- An allocator was initialized. -/
  | initialized (headerSize bootstrapSize : UInt64)
  /-- An object was asked for before initialization. -/
  | notInitialized
  /-- A request was raised to the smallest object size. -/
  | raised (size least : UInt64)
  /-- A request was larger than the largest object. -/
  | tooLarge (size greatest : UInt64)
  /-- The cache of a class could not be had. -/
  | cacheUnavailable (objectSize : UInt64) (error : AllocError)
  /-- An object was freed before initialization. -/
  | freedTooEarly
  /-- A freed object belongs to a class without a cache. -/
  | noCacheForObject (objectSize address : UInt64)
  deriving DecidableEq, Repr

namespace Event

/-- How serious the event is. -/
def level : Event → Level
  | notInitialized | tooLarge .. | cacheUnavailable .. | freedTooEarly | noCacheForObject .. =>
      .error
  | regionTooSmall .. | noPageForSlab .. | bootstrapMissing | cacheDropped .. | bootstrapKeeps ..
  | alreadyInitialized | raised .. => .warn
  | initialized .. => .info
  | pagesAdded .. | cacheCreated .. => .debug

/-- The words for the event. -/
def text : Event → String
  | regionTooSmall start stop =>
      "page pool: region [" ++ hexAddress start ++ ", " ++ hexAddress stop ++
        ") holds no whole page"
  | pagesAdded first stop count =>
      "page pool: added [" ++ hexAddress first ++ ", " ++ hexAddress stop ++ "), " ++
        toString count ++ " pages"
  | noPageForSlab size error =>
      "slab cache: no page for a new " ++ toString size ++ "-byte slab: " ++ error.name
  | bootstrapMissing => "cache registry: bootstrap cache not registered"
  | cacheCreated size address bucket =>
      "cache registry: created " ++ toString size ++ "-byte cache at " ++ hexAddress address ++
        " in bucket " ++ toString bucket
  | cacheDropped size live pages =>
      "cache registry: dropping " ++ toString size ++ "-byte cache with " ++ toString live ++
        " live objects in " ++ toString pages ++ " pages"
  | bootstrapKeeps live pages =>
      "cache registry: bootstrap cache keeps " ++ toString live ++ " live objects in " ++
        toString pages ++ " pages"
  | alreadyInitialized => "object allocator: already initialized"
  | initialized header bootstrap =>
      "object allocator: init, slab header " ++ toString header ++ " bytes, bootstrap class " ++
        toString bootstrap ++ " bytes"
  | notInitialized => "object allocator: Allocator not initialized"
  | raised size least =>
      "object allocator: size " ++ toString size ++ " too small, reset to " ++ toString least
  | tooLarge size greatest =>
      "object allocator: size " ++ toString size ++ " out of border " ++ toString greatest
  | cacheUnavailable size error =>
      "object allocator: failed to get the " ++ toString size ++ "-byte cache: " ++ error.name
  | freedTooEarly => "object allocator: Deallocating memory before initializing"
  | noCacheForObject size address =>
      "object allocator: no " ++ toString size ++ "-byte cache for object " ++ hexAddress address

/-- The event as a line of a journal. -/
def line (event : Event) : String := event.level.name ++ " " ++ event.text

end Event

end SlabHeap
