import Lucky.Buffer.Reserve
import Lucky.Buffer.Extraction
import Lucky.Epoller.Silence
import Lucky.Epoller.Outcomes
import Lucky.Epoller.Capacity
import Lucky.Connection.Completion
import Lucky.Connection.HighWater
import Lucky.Connection.HalfClose
import Lucky.Connection.Lifecycle
import Lucky.Connection.Finality
import Lucky.Connection.Borrowed
import Lucky.Connection.Echo
import Lucky.EventLoop.Consumption
import Lucky.EventLoop.Stop
import Lucky.Manager.Quit
import Lucky.Manager.Return
import Lucky.Server.Table
import Lucky.Server.RawCalls
import Lucky.Server.Balance
import Lucky.Server.Lives
import Lucky.Server.Draining
import Lucky.Server.Listening
