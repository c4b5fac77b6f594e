import TouchGesture.Cancel
import TouchGesture.Json.Gesture
import TouchGesture.Main
import TouchGesture.Touch.Recorder
import TouchGesture.Proofs.Gesture.Run
import TouchGesture.Proofs.Gesture.Script
import TouchGesture.Proofs.Gesture.Trace
import TouchGesture.Proofs.Gesture.Cancellation
import TouchGesture.Proofs.Gesture.Plan
import TouchGesture.Proofs.Gesture.Dispatch
import TouchGesture.Proofs.Touch.Order
import TouchGesture.Proofs.Touch.Panel
import TouchGesture.Proofs.Touch.Arena
import TouchGesture.Proofs.Double.Overflow
import TouchGesture.Proofs.Double.Finite
import TouchGesture.Proofs.Gesture.Endpoints
import TouchGesture.Proofs.Touch.Guests
import TouchGesture.Proofs.Gesture.Admission
import TouchGesture.Proofs.Gesture.Operation
import TouchGesture.Proofs.Gesture.Restoration
import TouchGesture.Proofs.Gesture.Session
import TouchGesture.Proofs.Touch.Crash
import TouchGesture.Proofs.Touch.Agreement
import TouchGesture.Proofs.Gesture.Invariant
import TouchGesture.Proofs.Gesture.Recording
import TouchGesture.Proofs.Gesture.Entrance
import TouchGesture.Proofs.Preview.Outcome
import TouchGesture.Proofs.Touch.Lifecycle
import TouchGesture.Proofs.Settings.Formats
import TouchGesture.Proofs.Clock.Passage
import TouchGesture.Proofs.Gesture.Frames
import TouchGesture.Proofs.Json.Trace
import TouchGesture.Proofs.Touch.Allocation
import TouchGesture.Proofs.Touch.Screen
import TouchGesture.Proofs.Gesture.Count
import TouchGesture.Proofs.Gesture.Tracks
import TouchGesture.Proofs.Gesture.Mirror
import TouchGesture.Proofs.Gesture.Segment
import TouchGesture.Proofs.Point.Text
import TouchGesture.Proofs.Point.Shown
import TouchGesture.Proofs.Json.Gesture
import TouchGesture.Proofs.Preview.Lines
import TouchGesture.Proofs.Touch.Injection
import TouchGesture.Proofs.Gesture.Rows
