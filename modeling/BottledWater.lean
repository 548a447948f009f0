import BottledWater.Producer
import BottledWater.Checkpoint
import BottledWater.Callbacks
import BottledWater.Send
import BottledWater.Run
import BottledWater.Tracker
import BottledWater.Invariant
import BottledWater.Refinement
import BottledWater.Runs
import BottledWater.Ring
import BottledWater.Accounting
import BottledWater.Checkpointing
import BottledWater.Delivery
import BottledWater.Snapshot
import BottledWater.TopicName
import BottledWater.Options
import BottledWater.Process
